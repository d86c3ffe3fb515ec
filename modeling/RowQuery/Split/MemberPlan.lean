import RowQuery.Schema.Basic
import RowQuery.Split.Error

/-!
# Matching members to expected types

A carrier is a type with members.  Matching picks one member for each of a list of expected types,
in their order and each member at most once.

* `MatchMode` — whether a member's type has to equal the expected one or only to be assignable to
  it.
* `MemberSlot`, `MemberPlan` — a chosen member, and the choice as a whole.
* `MemberPlan.ofMembers` — the choice.  The `k`-th occurrence of a type starts at the `k`-th member
  that fits it and takes the first one that is still free.  A choice once made is kept, even if a
  later type is then left without a member.
-/

namespace RowQuery

/-- **How a member's type has to relate to an expected type.** -/
inductive MatchMode where
  /-- The types are equal. -/
  | exact
  /-- The member's type is assignable to the expected one. -/
  | assignable
  deriving DecidableEq, Repr, Inhabited

/-- Whether a member fits an expected type. -/
def MatchMode.fits (mode : MatchMode) (member expected : Ty) : Bool :=
  match mode with
  | .exact => member == expected
  | .assignable => member.isAssignableTo expected

/-- **A chosen member**: its position in the carrier's declaration, its name and its type. -/
structure MemberSlot where
  index : Nat
  name : String
  ty : Ty
  deriving DecidableEq, Repr

/-- **The members chosen from a carrier**, in the order of the expected types. -/
structure MemberPlan where
  carrier : Ty
  slots : List MemberSlot
  deriving DecidableEq, Repr

namespace MemberSlot

/-- The members of a carrier with their positions. -/
def ofMembers (members : List FieldDef) : List MemberSlot :=
  members.zipIdx.map fun (member, index) => ⟨index, member.name, member.ty⟩

/-- The members that fit a type. -/
def candidates (mode : MatchMode) (members : List MemberSlot) (expected : Ty) :
    List MemberSlot :=
  members.filter fun slot => mode.fits slot.ty expected

/-- The member for one more expected type.  As many candidates are passed over as the type has
occurred among `earlier`; of the others the first is taken whose position is not in `claimed`. -/
def choose (mode : MatchMode) (carrier : Ty) (members : List MemberSlot) (earlier : List Ty)
    (claimed : List Nat) (expected : Ty) : Except SplitError MemberSlot :=
  let fitting := candidates mode members expected
  let occurred := earlier.count expected
  if fitting.isEmpty then throw (.noMatchingMember carrier expected)
  else
    match (fitting.drop occurred).find? fun slot => slot.index ∉ claimed with
    | some slot => return slot
    | none => throw (.insufficientMembers carrier expected (occurred + 1) fitting.length)

/-- The members for a list of expected types, after those for `earlier`. -/
def chooseAll (mode : MatchMode) (carrier : Ty) (members : List MemberSlot) (earlier : List Ty)
    (claimed : List Nat) : List Ty → Except SplitError (List MemberSlot)
  | [] => return []
  | expected :: rest => do
      let slot ← choose mode carrier members earlier claimed expected
      let slots ← chooseAll mode carrier members (expected :: earlier) (slot.index :: claimed) rest
      return slot :: slots

end MemberSlot

namespace MemberPlan

/-- The names of the chosen members. -/
def names (plan : MemberPlan) : List String := plan.slots.map (·.name)

/-- **Matching** the members of a carrier to expected types. -/
def ofMembers (mode : MatchMode) (carrier : Ty) (members : List FieldDef) (expected : List Ty) :
    Except SplitError MemberPlan := do
  let slots ← MemberSlot.chooseAll mode carrier (MemberSlot.ofMembers members) [] [] expected
  return ⟨carrier, slots⟩

end MemberPlan

end RowQuery
