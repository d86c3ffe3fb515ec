import RowQuery.Split.CarrierMap
import RowQuery.Split.PlanCache

/-!
# Splitting functions of several parameters

A source that takes functions of one row can be given a function of several parameters: each
parameter is matched to a member of the row type and becomes an access to it.

* `IdSupply` — where new parameter ids come from.
* `SplitOptions`, `Splitter` — how members are matched, and in which schema.
* `SplitM` — computations that may remember plans and allocate ids; what they did stays done when
  they fail.
* `Splitter.memberPlan`, `Splitter.carrierMap`, `Splitter.split` — the plan, the map and the split
  function for a carrier.
-/

namespace RowQuery

/-! ## New parameters -/

/-- **The supply of parameter ids**: the next one to hand out.  After the last id the supply begins
anew. -/
structure IdSupply where
  next : UInt32 := 0
  deriving DecidableEq, Repr, Inhabited

/-- A new id. -/
def IdSupply.fresh (ids : IdSupply) : ParamId × IdSupply := (⟨ids.next⟩, ⟨ids.next + 1⟩)

/-! ## Splitters -/

/-- **How functions are split.** -/
structure SplitOptions where
  matchMode : MatchMode := .assignable
  /-- Whether plans are remembered. -/
  cacheMemberPlans : Bool := true
  /-- The name by which the carrier parameter is shown. -/
  carrierParamName : String := "row"
  deriving DecidableEq, Repr, Inhabited

/-- **A splitter**: a schema, which does not change any more, and options. -/
structure Splitter where
  schema : Schema
  options : SplitOptions := {}
  deriving Repr, Inhabited

/-- What splitting leaves behind: remembered plans and the supply of ids. -/
structure SplitState where
  cache : PlanCache := {}
  ids : IdSupply := {}
  deriving Repr, Inhabited

/-- **Computations of splitting.** -/
abbrev SplitM := ExceptT SplitError (StateM SplitState)

/-- An outcome that leaves nothing behind. -/
def SplitM.ofExcept {α : Type} (r : Except SplitError α) : SplitM α := ExceptT.mk (pure r)

/-- A new parameter. -/
def SplitM.newParam (name : String) (ty : Ty) : SplitM Param := do
  let id ← modifyGetThe SplitState fun s =>
    let (id, ids) := s.ids.fresh
    (id, { s with ids })
  return ⟨id, name, ty⟩

namespace Splitter

/-- The plan as the schema gives it, nothing remembered. -/
def computePlan (s : Splitter) (carrier : Ty) (expected : List Ty) :
    Except SplitError MemberPlan := do
  let members ← (s.schema.members carrier).mapError .schema
  MemberPlan.ofMembers s.options.matchMode carrier members expected

/-- **One member of the carrier for each expected type.** -/
def memberPlan (s : Splitter) (carrier : Ty) (expected : List Ty) : SplitM MemberPlan := do
  let compute := fun () => s.computePlan carrier expected
  if s.options.cacheMemberPlans then
    let resolution ← modifyGetThe SplitState fun state =>
      let (resolution, cache) := state.cache.resolve ⟨carrier, expected⟩ compute
      (resolution, { state with cache })
    SplitM.ofExcept resolution.outcome
  else SplitM.ofExcept (compute ())

/-- **The parameters of a function as members of a carrier.** -/
def carrierMap (s : Splitter) (f : Lambda) (carrier : Ty) : SplitM CarrierMap := do
  SplitM.ofExcept f.checkParams
  let plan ← s.memberPlan carrier f.paramTys
  let param ← SplitM.newParam s.options.carrierParamName carrier
  return .ofPlan param f.params plan

/-- **Splitting**: the function of one parameter, the carrier. -/
def split (s : Splitter) (f : Lambda) (carrier : Ty) : SplitM Lambda := do
  return (← s.carrierMap f carrier).splitLambda f

end Splitter

end RowQuery
