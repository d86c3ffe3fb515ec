import Mathlib.Data.List.Forall2
import RowQuery.Proofs.Computations
import RowQuery.Split.MemberPlan

/-!
# Each type gets the first free member

Matching passes over as many candidates as the expected type has occurred before, and of the others
takes the first that is not claimed.  Nothing free is ever passed over: each earlier occurrence of
the type claimed at least one more of its candidates, from the first on.  So matching does what a
plain procedure does that passes over nothing.

* `MemberSlot.firstFree`, `MemberPlan.ofFirstFree` — the plain procedure.
* `SplitError.shortage` — why a type is left without a member.
* `MemberSlot.PassedOver` — the invariant: candidates that are passed over are claimed.
* **`MemberSlot.chooseAll_eq_outcome`** — with the invariant, the choice is the plain one.
* `MemberPlan.ofMembers_eq_ok_iff` — which plans there are.
* `MemberPlan.Serves` — what a plan is for the types that it was made for.
* **`MemberPlan.ofMembers_greedy`** — the plain procedure, its plans and its failures.
-/

namespace RowQuery

/-! ## The plain procedure -/

/-- **Why a type is left without a member**, after `earlier` ones: no member fits it, or all that do
are taken. -/
def SplitError.shortage (mode : MatchMode) (carrier : Ty) (members : List FieldDef)
    (earlier : List Ty) (expected : Ty) : SplitError :=
  let fitting := members.countP fun member => mode.fits member.ty expected
  if fitting = 0 then .noMatchingMember carrier expected
  else .insufficientMembers carrier expected (earlier.count expected + 1) fitting

namespace MemberSlot

/-- Whether a member can still serve a type: it fits and is not claimed. -/
def canServe (mode : MatchMode) (claimed : List Nat) (expected : Ty) (slot : MemberSlot) : Bool :=
  mode.fits slot.ty expected && slot.index ∉ claimed

/-- **The plain choice.**  Each type gets the first member that fits it and is not claimed, until a
type gets none. -/
def firstFree (mode : MatchMode) (members : List MemberSlot) (claimed : List Nat) :
    List Ty → List MemberSlot
  | [] => []
  | expected :: rest =>
      match members.find? (canServe mode claimed expected) with
      | some slot => slot :: firstFree mode members (slot.index :: claimed) rest
      | none => []

/-- **What a choice of members amounts to**: the members, if there is one for each type, or else the
failure of the first type without one.  The types come after `earlier` ones. -/
def outcome (mode : MatchMode) (carrier : Ty) (members : List FieldDef) (earlier expected : List Ty)
    (slots : List MemberSlot) : Except SplitError (List MemberSlot) :=
  match expected.drop slots.length with
  | [] => return slots
  | unserved :: _ =>
      throw (.shortage mode carrier members (earlier ++ expected.take slots.length) unserved)

end MemberSlot

namespace MemberPlan

/-- The plain choice from the members of a carrier. -/
def freeSlots (mode : MatchMode) (members : List FieldDef) (expected : List Ty) :
    List MemberSlot :=
  MemberSlot.firstFree mode (MemberSlot.ofMembers members) [] expected

/-- **Matching plainly.** -/
def ofFirstFree (mode : MatchMode) (carrier : Ty) (members : List FieldDef) (expected : List Ty) :
    Except SplitError MemberPlan := do
  let slots ← MemberSlot.outcome mode carrier members [] expected (freeSlots mode members expected)
  return ⟨carrier, slots⟩

end MemberPlan

namespace MemberSlot

variable {mode : MatchMode} {carrier : Ty} {members : List FieldDef}

theorem canServe_iff {claimed : List Nat} {expected : Ty} {slot : MemberSlot} :
    slot.canServe mode claimed expected = true ↔
      mode.fits slot.ty expected = true ∧ slot.index ∉ claimed := by
  rw [canServe, Bool.and_eq_true, decide_eq_true_iff]

/-! ## Members with their positions -/

theorem mem_ofMembers_iff {slot : MemberSlot} :
    slot ∈ ofMembers members ↔ members[slot.index]? = some ⟨slot.name, slot.ty⟩ := by
  simp only [ofMembers, List.mem_map, List.mem_zipIdx_iff_getElem?, Prod.exists]
  constructor
  · rintro ⟨member, index, found, rfl⟩
    exact found
  · intro found
    exact ⟨_, _, found, rfl⟩

/-- Members stand in the order of their positions. -/
theorem pairwise_ofMembers (members : List FieldDef) :
    (ofMembers members).Pairwise fun a b => a.index < b.index := by
  have positions : (ofMembers members).map (·.index) = List.range' 0 members.length := by
    rw [← List.zipIdx_map_snd, ofMembers, List.map_map]
    rfl
  have sorted := List.pairwise_lt_range' (s := 0) (n := members.length) 1
  rwa [← positions, List.pairwise_map] at sorted

/-- As many members fit with their positions as without. -/
theorem length_candidates (t : Ty) :
    (candidates mode (ofMembers members) t).length =
      members.countP fun member => mode.fits member.ty t := by
  conv_rhs => rw [← List.zipIdx_map_fst 0 members, List.countP_map]
  rw [candidates, ← List.countP_eq_length_filter, ofMembers, List.countP_map]
  rfl

/-! ## Nothing free is passed over -/

/-- **Candidates that are passed over are claimed.** -/
def PassedOver (mode : MatchMode) (members : List MemberSlot) (earlier : List Ty)
    (claimed : List Nat) : Prop :=
  ∀ t, ∀ slot ∈ (candidates mode members t).take (earlier.count t), slot.index ∈ claimed

theorem PassedOver.nil {members : List MemberSlot} : PassedOver mode members [] [] := by
  intro t slot hslot
  simp at hslot

/-- What is claimed need not be searched. -/
theorem PassedOver.find?_drop {members : List MemberSlot} {earlier : List Ty} {claimed : List Nat}
    (h : PassedOver mode members earlier claimed) (t : Ty) :
    ((candidates mode members t).drop (earlier.count t)).find? (fun slot => slot.index ∉ claimed) =
      members.find? (canServe mode claimed t) := by
  have none : ((candidates mode members t).take (earlier.count t)).find?
      (fun slot => slot.index ∉ claimed) = none := by
    rw [List.find?_eq_none]
    intro slot hslot
    simpa using h t slot hslot
  have all : (candidates mode members t).find? (fun slot => slot.index ∉ claimed) =
      members.find? (canServe mode claimed t) := by
    rw [candidates, List.find?_filter]
    refine congrArg (List.find? · members) (funext fun slot => ?_)
    rw [Bool.eq_iff_iff, canServe_iff]
    simp
  rw [← all, ← List.take_append_drop (earlier.count t) (candidates mode members t),
    List.find?_append, none, Option.none_or, List.take_append_drop]

/-- **One more choice keeps the invariant**: it takes the next candidate of its type, or finds that
one claimed. -/
theorem PassedOver.cons {members : List MemberSlot} {earlier : List Ty} {claimed : List Nat}
    (h : PassedOver mode members earlier claimed) {t : Ty} {slot : MemberSlot}
    (found : members.find? (canServe mode claimed t) = some slot) :
    PassedOver mode members (t :: earlier) (slot.index :: claimed) := by
  intro u other hother
  by_cases same : u = t
  · subst same
    rw [List.count_cons_self, List.take_add_one, List.mem_append, Option.mem_toList] at hother
    rcases hother with hother | next
    · exact List.mem_cons_of_mem _ (h u other hother)
    · by_cases free : other.index ∈ claimed
      · exact List.mem_cons_of_mem _ free
      · obtain ⟨bound, rfl⟩ := List.getElem?_eq_some_iff.mp next
        rw [← h.find?_drop, List.drop_eq_getElem_cons bound,
          List.find?_cons_of_pos (by simpa using free)] at found
        cases found
        exact List.mem_cons_self
  · rw [List.count_cons_of_ne (Ne.symm same)] at hother
    exact List.mem_cons_of_mem _ (h u other hother)

/-- **One choice** with the invariant: the first free member, or a shortage. -/
theorem choose_eq {earlier : List Ty} {claimed : List Nat}
    (h : PassedOver mode (ofMembers members) earlier claimed) (t : Ty) :
    choose mode carrier (ofMembers members) earlier claimed t =
      match (ofMembers members).find? (canServe mode claimed t) with
      | some slot => .ok slot
      | none => .error (.shortage mode carrier members earlier t) := by
  rw [← h.find?_drop, choose, SplitError.shortage, ← length_candidates]
  cases candidates mode (ofMembers members) t with
  | nil =>
      rw [List.drop_nil]
      rfl
  | cons first rest =>
      simp only [List.isEmpty_cons, Bool.false_eq_true, if_false, List.length_cons,
        Nat.add_one_ne_zero]
      cases List.find? _ ((first :: rest).drop (earlier.count t)) <;> rfl

/-- A shortage does not depend on the order of the earlier types. -/
theorem shortage_perm {earlier earlier' : List Ty} (h : earlier.Perm earlier') (t : Ty) :
    SplitError.shortage mode carrier members earlier t =
      SplitError.shortage mode carrier members earlier' t := by
  simp only [SplitError.shortage, h.count_eq]

theorem outcome_cons {earlier rest : List Ty} {t : Ty} {slot : MemberSlot}
    {slots : List MemberSlot} :
    outcome mode carrier members earlier (t :: rest) (slot :: slots) = do
      let chosen ← outcome mode carrier members (t :: earlier) rest slots
      return slot :: chosen := by
  unfold outcome
  rw [List.length_cons, List.drop_succ_cons, List.take_succ_cons]
  cases rest.drop slots.length with
  | nil => rfl
  | cons unserved _ => exact congrArg Except.error (shortage_perm List.perm_middle unserved)

/-- **The choice is the plain one**, as long as nothing free was passed over before. -/
theorem chooseAll_eq_outcome {earlier : List Ty} {claimed : List Nat}
    (h : PassedOver mode (ofMembers members) earlier claimed) (expected : List Ty) :
    chooseAll mode carrier (ofMembers members) earlier claimed expected =
      outcome mode carrier members earlier expected
        (firstFree mode (ofMembers members) claimed expected) := by
  induction expected generalizing earlier claimed with
  | nil => rfl
  | cons t rest ih =>
      rw [chooseAll, choose_eq h, firstFree]
      cases found : (ofMembers members).find? _ with
      | none => simp [outcome, bind, Except.bind, throw, throwThe, MonadExceptOf.throw]
      | some slot =>
          rw [outcome_cons, ← ih (h.cons found)]
          rfl

/-! ## What the plain choice gives -/

section

variable {members : List MemberSlot} {claimed : List Nat} {expected : List Ty}

/-- No more members are chosen than there are types. -/
theorem length_firstFree_le :
    (firstFree mode members claimed expected).length ≤ expected.length := by
  induction expected generalizing claimed with
  | nil => exact Nat.le_refl 0
  | cons t rest ih =>
      rw [firstFree]
      cases members.find? _ with
      | none => exact Nat.zero_le _
      | some slot => exact Nat.succ_le_succ ih

/-- **Fewer types** get the same members, as far as they go. -/
theorem firstFree_take (n : Nat) :
    firstFree mode members claimed (expected.take n) =
      (firstFree mode members claimed expected).take n := by
  induction expected generalizing claimed n with
  | nil => rw [List.take_nil, firstFree, List.take_nil]
  | cons t rest ih =>
      cases n with
      | zero => rfl
      | succ n =>
          rw [List.take_succ_cons, firstFree, firstFree]
          cases members.find? (canServe mode claimed t) with
          | none => rfl
          | some slot => simp only [ih, List.take_succ_cons]

/-- What a type gets fits it and was free. -/
theorem of_mem_zip_firstFree {x : Ty × MemberSlot}
    (h : x ∈ expected.zip (firstFree mode members claimed expected)) :
    x.2 ∈ members ∧ mode.fits x.2.ty x.1 = true ∧ x.2.index ∉ claimed := by
  induction expected generalizing claimed with
  | nil => cases h
  | cons t rest ih =>
      rw [firstFree] at h
      cases found : members.find? (canServe mode claimed t) with
      | none => simp [found] at h
      | some slot =>
          simp only [found, List.zip_cons_cons, List.mem_cons] at h
          rcases h with rfl | h
          · have chosen := List.find?_some found
            exact ⟨List.mem_of_find?_eq_some found, canServe_iff.mp chosen⟩
          · obtain ⟨member, fits, free⟩ := ih h
            exact ⟨member, fits, fun hmem => free (List.mem_cons_of_mem _ hmem)⟩

/-- The first member with a property comes before all others that have it. -/
theorem index_lt_of_find? {p : MemberSlot → Bool} {slot other : MemberSlot}
    (sorted : members.Pairwise fun a b => a.index < b.index) (found : members.find? p = some slot)
    (member : other ∈ members) (holds : p other = true) (ne : other.index ≠ slot.index) :
    slot.index < other.index := by
  obtain ⟨-, before, after, rfl, none⟩ := List.find?_eq_some_iff_append.mp found
  rcases List.mem_append.mp member with early | late
  · have missed := none other early
    rw [holds] at missed
    cases missed
  · rcases List.mem_cons.mp late with rfl | late
    · exact absurd rfl ne
    · exact (List.pairwise_cons.mp (List.pairwise_append.mp sorted).2.1).1 other late

/-- **Later types get other members**, and later ones if they are the same type. -/
theorem pairwise_zip_firstFree (sorted : members.Pairwise fun a b => a.index < b.index) :
    (expected.zip (firstFree mode members claimed expected)).Pairwise fun x y =>
      x.2.index ≠ y.2.index ∧ (x.1 = y.1 → x.2.index < y.2.index) := by
  induction expected generalizing claimed with
  | nil => exact List.Pairwise.nil
  | cons t rest ih =>
      rw [firstFree]
      cases found : members.find? (canServe mode claimed t) with
      | none => simp
      | some slot =>
          refine List.Pairwise.cons (fun y hy => ?_) ih
          obtain ⟨member, fits, free⟩ := of_mem_zip_firstFree hy
          rw [List.mem_cons, not_or] at free
          refine ⟨Ne.symm free.1, fun same => ?_⟩
          have fits : mode.fits y.2.ty t = true := by
            rw [show t = y.1 from same]
            exact fits
          exact index_lt_of_find? sorted found member (canServe_iff.mpr ⟨fits, free.2⟩) free.1

/-- **A type that gets no member** finds those that fit it claimed, before or by earlier types. -/
theorem claimed_of_drop_firstFree {unserved : Ty} {rest : List Ty}
    (h : expected.drop (firstFree mode members claimed expected).length = unserved :: rest)
    {slot : MemberSlot} (member : slot ∈ members) (fits : mode.fits slot.ty unserved = true) :
    slot.index ∈ claimed ∨
      slot.index ∈ (firstFree mode members claimed expected).map (·.index) := by
  induction expected generalizing claimed with
  | nil => cases h
  | cons t rest' ih =>
      rw [firstFree] at h ⊢
      cases found : members.find? (canServe mode claimed t) with
      | none =>
          simp only [found, List.length_nil, List.drop_zero, List.cons.injEq] at h
          obtain ⟨rfl, -⟩ := h
          have taken := List.find?_eq_none.mp found slot member
          rw [canServe_iff] at taken
          exact .inl (Decidable.not_not.mp fun free => taken ⟨fits, free⟩)
      | some first =>
          simp only [found, List.length_cons, List.drop_succ_cons] at h
          simp only [List.map_cons, List.mem_cons]
          rcases ih h with old | new
          · rcases List.mem_cons.mp old with same | old
            · exact .inr (.inl same)
            · exact .inl old
          · exact .inr (.inr new)

end

end MemberSlot

/-! ## Plans -/

namespace MemberPlan

variable {mode : MatchMode} {carrier : Ty} {members : List FieldDef} {expected : List Ty}
  {plan : MemberPlan}

/-- **Matching is matching plainly.** -/
theorem ofMembers_eq_ofFirstFree :
    ofMembers mode carrier members expected = ofFirstFree mode carrier members expected := by
  rw [ofMembers, MemberSlot.chooseAll_eq_outcome .nil, ofFirstFree, freeSlots]

/-- **There is a plan** exactly if the plain choice has a member for each type. -/
theorem ofMembers_eq_ok_iff :
    ofMembers mode carrier members expected = .ok plan ↔
      plan = ⟨carrier, freeSlots mode members expected⟩ ∧
        (freeSlots mode members expected).length = expected.length := by
  have few : (freeSlots mode members expected).length ≤ expected.length :=
    MemberSlot.length_firstFree_le
  rw [ofMembers_eq_ofFirstFree, ofFirstFree, MemberSlot.outcome]
  cases left : expected.drop (freeSlots mode members expected).length with
  | nil =>
      have all := List.drop_eq_nil_iff.mp left
      constructor
      · rintro ⟨⟩
        exact ⟨rfl, Nat.le_antisymm few all⟩
      · rintro ⟨rfl, -⟩
        rfl
  | cons unserved rest =>
      constructor
      · rintro ⟨⟩
      · rintro ⟨-, all⟩
        rw [all, List.drop_length] at left
        cases left

theorem carrier_of_ofMembers (h : ofMembers mode carrier members expected = .ok plan) :
    plan.carrier = carrier := by
  rw [(ofMembers_eq_ok_iff.mp h).1]

/-- **There is no plan** exactly if the plain choice stops at a type. -/
theorem ofMembers_eq_error_iff {e : SplitError} :
    ofMembers mode carrier members expected = .error e ↔
      ∃ unserved rest,
        expected.drop (freeSlots mode members expected).length = unserved :: rest ∧
        e = .shortage mode carrier members
          (expected.take (freeSlots mode members expected).length) unserved := by
  rw [ofMembers_eq_ofFirstFree, ofFirstFree, MemberSlot.outcome]
  cases expected.drop (freeSlots mode members expected).length with
  | nil =>
      constructor
      · rintro ⟨⟩
      · rintro ⟨_, _, ⟨⟩, -⟩
  | cons unserved rest =>
      constructor
      · rintro ⟨⟩
        exact ⟨unserved, rest, rfl, rfl⟩
      · rintro ⟨_, _, ⟨⟩, rfl⟩
        rfl

/-- **What a plan is** for the types that it was made for. -/
structure Serves (mode : MatchMode) (members : List FieldDef) (expected : List Ty)
    (plan : MemberPlan) : Prop where
  /-- For each type in order, a member that fits it, with its name, its type and its position. -/
  fitting : List.Forall₂ (fun t slot =>
    members[slot.index]? = some ⟨slot.name, slot.ty⟩ ∧ mode.fits slot.ty t = true)
      expected plan.slots
  /-- Different members for different types. -/
  distinct : (plan.slots.map (·.index)).Nodup
  /-- Members in the order of their positions for types that are equal. -/
  increasing : (expected.zip plan.slots).Pairwise fun x y => x.1 = y.1 → x.2.index < y.2.index

/-- **Every plan serves** the types that it was made for. -/
theorem serves_of_ofMembers (h : ofMembers mode carrier members expected = .ok plan) :
    plan.Serves mode members expected := by
  obtain ⟨rfl, all⟩ := ofMembers_eq_ok_iff.mp h
  have apart : (expected.zip (freeSlots mode members expected)).Pairwise fun x y =>
      x.2.index ≠ y.2.index ∧ (x.1 = y.1 → x.2.index < y.2.index) :=
    MemberSlot.pairwise_zip_firstFree (MemberSlot.pairwise_ofMembers members)
  refine ⟨List.forall₂_iff_zip.mpr ⟨all.symm, fun {t slot} hzip => ?_⟩, ?_, ?_⟩
  · obtain ⟨member, fits, -⟩ := MemberSlot.of_mem_zip_firstFree hzip
    exact ⟨MemberSlot.mem_ofMembers_iff.mp member, fits⟩
  · have slots : (expected.zip (freeSlots mode members expected)).map Prod.snd =
        freeSlots mode members expected := List.map_snd_zip (Nat.le_of_eq all)
    rw [← slots, List.map_map, List.Nodup, List.pairwise_map]
    exact apart.imp fun h => h.1
  · exact apart.imp fun h => h.2

/-- **Matching, exactly.**  It is the plain procedure: each type gets the first member that fits it
and is free.  A plan serves its types.  A failure is that of the first type without a free member
that fits it, and it says how many would be needed and how many there are. -/
theorem ofMembers_greedy (mode : MatchMode) (carrier : Ty) (members : List FieldDef)
    (expected : List Ty) :
    ofMembers mode carrier members expected = ofFirstFree mode carrier members expected ∧
    (∀ plan, ofMembers mode carrier members expected = .ok plan →
      plan.carrier = carrier ∧ plan.Serves mode members expected) ∧
    ∀ e, ofMembers mode carrier members expected = .error e →
      ∃ served unserved rest plan, expected = served ++ unserved :: rest ∧
        ofMembers mode carrier members served = .ok plan ∧
        (∀ i member, members[i]? = some member → mode.fits member.ty unserved = true →
          i ∈ plan.slots.map (·.index)) ∧
        e = .shortage mode carrier members served unserved := by
  refine ⟨ofMembers_eq_ofFirstFree, fun plan h => ?_, fun e h => ?_⟩
  · exact ⟨carrier_of_ofMembers h, serves_of_ofMembers h⟩
  · obtain ⟨unserved, rest, left, rfl⟩ := ofMembers_eq_error_iff.mp h
    have few : (freeSlots mode members expected).length ≤ expected.length :=
      MemberSlot.length_firstFree_le
    have same : freeSlots mode members
        (expected.take (freeSlots mode members expected).length) =
          freeSlots mode members expected := by
      rw [freeSlots, MemberSlot.firstFree_take, ← freeSlots, List.take_length]
    refine ⟨_, unserved, rest, ⟨carrier, freeSlots mode members expected⟩, ?_, ?_, ?_, rfl⟩
    · rw [← left, List.take_append_drop]
    · refine ofMembers_eq_ok_iff.mpr ⟨by rw [same], ?_⟩
      rw [same, List.length_take, Nat.min_eq_left few]
    · intro i member found fits
      have listed : (⟨i, member.name, member.ty⟩ : MemberSlot) ∈ MemberSlot.ofMembers members :=
        MemberSlot.mem_ofMembers_iff.mpr found
      rcases MemberSlot.claimed_of_drop_firstFree left listed fits with old | new
      · cases old
      · exact new

/-- A choice is kept, although another one would leave a member for the later type. -/
example : ofMembers .assignable (.con "Row") [⟨"a", .int⟩, ⟨"b", .option .int⟩]
    [.option .int, .int] = .error (.insufficientMembers (.con "Row") .int 1 1) := rfl

end MemberPlan

end RowQuery
