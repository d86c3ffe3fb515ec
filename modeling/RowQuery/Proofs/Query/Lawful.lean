import Mathlib.Data.List.Basic
import RowQuery.Proofs.ParamOrder.Permutations
import RowQuery.Proofs.Query.JoinMembers
import RowQuery.Query.Plan
import RowQuery.Query.Sequence

/-!
# What is composed is of the right type

Sources check functions against element types when a query is composed, and know the element type
of the result.  Both kinds of sources do it alike.

* `LawfulSource` — what a successful operation says about types.  No operation splits a function.
* `instLawfulSequence`, `instLawfulPlan` — sequences and plans are lawful.
* `Source.elementTy_of_joinRows` — join rows are of the type of join rows.
* `Splitter.SplitsTo` — the type of what a function computes when it is split over a carrier.
* **`Source.splitsTo_of_selectSplit`** — a projection with a function of two parameters found members
  for them, and yields what the split function computes.
* `Source.exec_fullOuterJoin` — a full join is its two halves, put together.
* `Source.splitsTo_of_leftOuterJoin`, `Source.splitsTo_of_secondHalf`,
  **`Source.planOf_of_fullOuterJoin`** — the joins found members, too, for each of their halves.
-/

namespace RowQuery

open Source

/-- **Sources that know the types of what they yield.** -/
class LawfulSource (σ : Type) [Source σ] : Prop where
  correlate_ok {ctx : QueryContext} {s s' : Session} {outer inner result : σ}
    {outerKey innerKey : Lambda}
    (h : (correlate outer inner outerKey innerKey).exec ctx s = (.ok result, s')) :
    Query.correlatedTy (elementTy outer) (elementTy inner) outerKey innerKey =
      .ok (elementTy result) ∧ s'.split = s.split
  flatten_ok {ctx : QueryContext} {s s' : Session} {source result : σ}
    (h : (flattenWithDefault source).exec ctx s = (.ok result, s')) :
    Query.flattenedTy (elementTy source) = .ok (elementTy result) ∧ s'.split = s.split
  project_ok {ctx : QueryContext} {s s' : Session} {source result : σ} {selector : Lambda}
    (h : (project source selector).exec ctx s = (.ok result, s')) :
    Query.checkUnary "project" selector (elementTy source) = .ok () ∧
      elementTy result = selector.retTy ∧ s'.split = s.split
  filter_ok {ctx : QueryContext} {s s' : Session} {source result : σ} {predicate : Lambda}
    (h : (filter source predicate).exec ctx s = (.ok result, s')) :
    Query.checkPredicate predicate (elementTy source) = .ok () ∧
      elementTy result = elementTy source ∧ s'.split = s.split
  union_ok {ctx : QueryContext} {s s' : Session} {left right result : σ}
    (h : (union left right).exec ctx s = (.ok result, s')) :
    elementTy left = elementTy right ∧ elementTy result = elementTy left ∧ s'.split = s.split
  concat_ok {ctx : QueryContext} {s s' : Session} {left right result : σ}
    (h : (concat left right).exec ctx s = (.ok result, s')) :
    elementTy left = elementTy right ∧ elementTy result = elementTy left ∧ s'.split = s.split

/-- Equal element types are what is checked. -/
theorem Query.checkSameElements_eq_ok_iff {op : String} {left right : Ty} :
    checkSameElements op left right = .ok () ↔ left = right := by
  unfold checkSameElements
  split <;> simp_all [pure, Except.pure]

/-- Sequences are lawful. -/
instance instLawfulSequence : LawfulSource Sequence where
  correlate_ok h := by
    obtain ⟨n, run, rfl⟩ := QueryM.exec_read_ofRows_eq_ok_iff.mp h
    obtain ⟨ty, k, hty, h⟩ := RowM.bind_eq_ok_iff.mp run
    obtain ⟨rows, l, -, h⟩ := RowM.bind_eq_ok_iff.mp h
    cases h
    exact ⟨(RowM.ofExcept_eq_ok_iff.mp hty).1, rfl⟩
  flatten_ok {ctx _ _ _ _} h := by
    obtain ⟨n, run, rfl⟩ := QueryM.exec_read_ofRows_eq_ok_iff.mp h
    obtain ⟨ty, k, hty, h⟩ := RowM.bind_eq_ok_iff.mp run
    obtain ⟨rows, l, -, h⟩ := RowM.bind_eq_ok_iff.mp h
    cases h
    exact ⟨(RowM.ofExcept_eq_ok_iff.mp hty).1, rfl⟩
  project_ok {ctx _ _ _ _ _} h := by
    obtain ⟨n, run, rfl⟩ := QueryM.exec_read_ofRows_eq_ok_iff.mp h
    obtain ⟨_, k, check, h⟩ := RowM.bind_eq_ok_iff.mp run
    obtain ⟨rows, l, -, h⟩ := RowM.bind_eq_ok_iff.mp h
    cases h
    exact ⟨(RowM.ofExcept_eq_ok_iff.mp check).1, rfl, rfl⟩
  filter_ok {ctx _ _ _ _ _} h := by
    obtain ⟨n, run, rfl⟩ := (QueryM.exec_ofRows_eq_ok_iff ctx).mp h
    obtain ⟨_, k, check, h⟩ := RowM.bind_eq_ok_iff.mp run
    obtain ⟨rows, l, -, h⟩ := RowM.bind_eq_ok_iff.mp h
    cases h
    exact ⟨(RowM.ofExcept_eq_ok_iff.mp check).1, rfl, rfl⟩
  union_ok {ctx _ _ _ _ _} h := by
    obtain ⟨n, run, rfl⟩ := (QueryM.exec_ofRows_eq_ok_iff ctx).mp h
    obtain ⟨_, k, check, h⟩ := RowM.bind_eq_ok_iff.mp run
    cases h
    exact ⟨Query.checkSameElements_eq_ok_iff.mp (RowM.ofExcept_eq_ok_iff.mp check).1, rfl, rfl⟩
  concat_ok {ctx _ _ _ _ _} h := by
    obtain ⟨n, run, rfl⟩ := (QueryM.exec_ofRows_eq_ok_iff ctx).mp h
    obtain ⟨_, k, check, h⟩ := RowM.bind_eq_ok_iff.mp run
    cases h
    exact ⟨Query.checkSameElements_eq_ok_iff.mp (RowM.ofExcept_eq_ok_iff.mp check).1, rfl, rfl⟩

/-- Making a node after a check. -/
theorem exec_newNode_after {α : Type} {ctx : QueryContext} {s s' : Session}
    {check : Except QueryError α} {node : α → Nat → Plan} {result : Plan}
    (h : QueryM.exec (do
      let a ← QueryM.ofExcept check
      return node a (← QueryM.newNode)) ctx s = (.ok result, s')) :
    ∃ a, check = .ok a ∧ result = node a s.nodes ∧ s' = { s with nodes := s.nodes + 1 } := by
  obtain ⟨a, t, ha, h⟩ := QueryM.exec_bind_eq_ok_iff.mp h
  rw [QueryM.exec_ofExcept, Prod.mk.injEq] at ha
  obtain ⟨ha, rfl⟩ := ha
  cases h
  exact ⟨a, ha, rfl, rfl⟩

/-- Plans are lawful. -/
instance instLawfulPlan : LawfulSource Plan where
  correlate_ok h := by
    obtain ⟨ty, check, rfl, rfl⟩ := exec_newNode_after h
    exact ⟨check, rfl⟩
  flatten_ok h := by
    obtain ⟨ty, check, rfl, rfl⟩ := exec_newNode_after h
    exact ⟨check, rfl⟩
  project_ok h := by
    obtain ⟨_, check, rfl, rfl⟩ := exec_newNode_after h
    exact ⟨check, rfl, rfl⟩
  filter_ok h := by
    obtain ⟨_, check, rfl, rfl⟩ := exec_newNode_after h
    exact ⟨check, rfl, rfl⟩
  union_ok h := by
    obtain ⟨_, check, rfl, rfl⟩ := exec_newNode_after h
    exact ⟨Query.checkSameElements_eq_ok_iff.mp check, rfl, rfl⟩
  concat_ok h := by
    obtain ⟨_, check, rfl, rfl⟩ := exec_newNode_after h
    exact ⟨Query.checkSameElements_eq_ok_iff.mp check, rfl, rfl⟩

/-! ## Halves of joins -/

/-- **What a function computes when it is split over a carrier**, if it can be split. -/
def Splitter.SplitsTo (s : Splitter) (f : Lambda) (carrier ty : Ty) : Prop :=
  ∃ plan param, s.planOf f carrier = .ok plan ∧
    ((CarrierMap.ofPlan param f.params plan).splitLambda f).retTy = ty

/-- A function that is split has a plan. -/
theorem Splitter.SplitsTo.exists_planOf {s : Splitter} {f : Lambda} {carrier ty : Ty}
    (h : s.SplitsTo f carrier ty) : ∃ plan, s.planOf f carrier = .ok plan :=
  let ⟨plan, _, planned, _⟩ := h
  ⟨plan, planned⟩

/-- Correlated elements are groupings. -/
theorem Query.eq_grouping_of_correlatedTy {O I ty : Ty} {outerKey innerKey : Lambda}
    (h : correlatedTy O I outerKey innerKey = .ok ty) : ty = Grouping.ty O I := by
  obtain ⟨_, -, h⟩ := bind_eq_ok_iff.mp h
  obtain ⟨_, -, h⟩ := bind_eq_ok_iff.mp h
  split at h
  · cases h
    rfl
  · cases h

namespace Source

variable {σ : Type} [Source σ] {ctx : QueryContext} {s s' : Session} {outer inner : σ}
  {outerKey innerKey selector : Lambda}

theorem takesElement_eq_false {f : Lambda} (two : f.arity = 2) (element : Ty) :
    takesElement f element = false := by
  obtain ⟨p, q, hpq⟩ := List.length_eq_two.mp two
  simp [takesElement, hpq]

/-- **Splitting for a source.**  A function that does not take the element is split. -/
theorem exec_splitAgainst (remembers : ctx.splitter.Remembers s.split) (source : σ) {f : Lambda}
    (parts : takesElement f (elementTy source) = false) :
    ∃ after, ctx.splitter.Remembers after ∧
      (splitAgainst source f).exec ctx s =
        (((ctx.splitter.planOf f (elementTy source)).map fun plan =>
          (CarrierMap.ofPlan (ctx.splitter.nextCarrier s.split (elementTy source)) f.params
            plan).splitLambda f).mapError .split, { s with split := after }) ∧
      after.ids = match ctx.splitter.planOf f (elementTy source) with
        | .ok _ => ⟨s.split.ids.next + 1⟩
        | .error _ => s.split.ids := by
  obtain ⟨after, remembers, run, ids⟩ := Splitter.split_run remembers f (elementTy source)
  refine ⟨after, remembers, ?_, ids⟩
  simp only [splitAgainst, parts, Bool.false_eq_true, if_false, QueryM.exec_read_bind,
    QueryM.exec_ofSplit, run]

/-- **The predicate that a group is empty** takes one id. -/
theorem exec_emptyGroup (source : σ) : (emptyGroup source).exec ctx s =
    (((ctx.schema.memberAccess (.param ⟨⟨s.split.ids.next⟩, "g", elementTy source⟩)
        Grouping.group).mapError .schema).map fun group =>
          ⟨[⟨⟨s.split.ids.next⟩, "g", elementTy source⟩], .callOf .isEmpty [group]⟩,
      { s with split := { s.split with ids := ⟨s.split.ids.next + 1⟩ } }) := by
  have param : (QueryM.ofSplit (SplitM.newParam "g" (elementTy source))).exec ctx s =
      (.ok ⟨⟨s.split.ids.next⟩, "g", elementTy source⟩,
        { s with split := { s.split with ids := ⟨s.split.ids.next + 1⟩ } }) := rfl
  rw [emptyGroup, QueryM.exec_bind, param]
  show QueryM.exec (read >>= _) ctx _ = _
  rw [QueryM.exec_read_bind, QueryM.exec_bind, QueryM.exec_ofExcept]
  cases ctx.schema.memberAccess (.param ⟨⟨s.split.ids.next⟩, "g", elementTy source⟩)
    Grouping.group <;> rfl

/-- The half of the inner elements that no outer element matches. -/
def unmatchedJoin (outer inner : σ) (outerKey innerKey selector : Lambda) : QueryM σ := do
  let switched ← .ofExcept (selector.switch.mapError .split)
  selectSplit (← unmatchedRows outer inner outerKey innerKey) switched

/-- **The second half of a full join**: the unmatched inner elements, or all of them. -/
def secondHalf (outer inner : σ) (outerKey innerKey selector : Lambda) : QueryM σ := do
  match (← read).join.fullJoin with
  | .antiJoin => unmatchedJoin outer inner outerKey innerKey selector
  | .union => rightOuterJoin outer inner outerKey innerKey selector

/-- The halves put together. -/
def combineHalves (left right : σ) : QueryM σ := do
  match (← read).join.fullJoin with
  | .antiJoin => concat left right
  | .union => union left right

/-- A selector with another number of parameters is refused by the first half already. -/
theorem exec_leftOuterJoin_of_arity_ne (count : selector.arity ≠ 2) :
    (leftOuterJoin outer inner outerKey innerKey selector).exec ctx s =
      (.error (.split (.arityMismatch 2 selector.arity)), s) := by
  have check : checkSelector selector = .error (.split (.arityMismatch 2 selector.arity)) :=
    if_neg count
  rw [leftOuterJoin, check]
  rfl

/-- What follows the exchange of parameters runs with a function of two. -/
theorem exec_after_switch {α : Type} {f : Lambda → QueryM α} {a : α}
    (h : (QueryM.ofExcept (selector.switch.mapError .split) >>= f).exec ctx s = (.ok a, s')) :
    ∃ switched, switched.arity = 2 ∧ selector.switch = .ok switched ∧
      (f switched).exec ctx s = (.ok a, s') := by
  obtain ⟨switched, t, exchanged, h⟩ := QueryM.exec_bind_eq_ok_iff.mp h
  rw [QueryM.exec_ofExcept, Prod.mk.injEq] at exchanged
  obtain ⟨exchanged, rfl⟩ := exchanged
  have exchanged := mapError_eq_ok_iff.mp exchanged
  obtain ⟨p, q, -, rfl⟩ := Lambda.switch_eq_ok_iff.mp exchanged
  exact ⟨_, rfl, exchanged, h⟩

theorem exec_secondHalf : (secondHalf outer inner outerKey innerKey selector).exec ctx s =
    match ctx.join.fullJoin with
    | .antiJoin => (unmatchedJoin outer inner outerKey innerKey selector).exec ctx s
    | .union => (rightOuterJoin outer inner outerKey innerKey selector).exec ctx s := by
  rw [secondHalf, QueryM.exec_read_bind]
  cases ctx.join.fullJoin <;> rfl

theorem exec_combineHalves {left right : σ} : (combineHalves left right).exec ctx s =
    match ctx.join.fullJoin with
    | .antiJoin => (concat left right).exec ctx s
    | .union => (union left right).exec ctx s := by
  rw [combineHalves, QueryM.exec_read_bind]
  cases ctx.join.fullJoin <;> rfl

/-- **A full join is its two halves**, one after the other, put together. -/
theorem exec_fullOuterJoin :
    (fullOuterJoin outer inner outerKey innerKey selector).exec ctx s =
      QueryM.exec (do
        let left ← leftOuterJoin outer inner outerKey innerKey selector
        let right ← secondHalf outer inner outerKey innerKey selector
        combineHalves left right) ctx s := by
  rw [fullOuterJoin, QueryM.exec_read_bind, QueryM.exec_bind]
  simp only [QueryM.exec_bind, exec_secondHalf, exec_combineHalves]
  cases ctx.join.fullJoin with
  | union => simp only [QueryM.exec_bind]
  | antiJoin =>
    simp only [QueryM.exec_bind, unmatchedJoin, QueryM.exec_ofExcept]
    -- the exchange is made first, but it fails only where the first half would
    by_cases two : selector.arity = 2
    · obtain ⟨p, q, hparams⟩ := List.length_eq_two.mp two
      rw [Lambda.switch_eq_ok_iff.mpr ⟨p, q, hparams, rfl⟩]
      simp only [Except.mapError]
      rcases (leftOuterJoin outer inner outerKey innerKey selector).exec ctx s with ⟨_ | left, t⟩
      · rfl
      · rcases unmatched : (unmatchedRows outer inner outerKey innerKey).exec ctx t with ⟨_ | _, _⟩ <;>
          simp only [unmatched]
    · have switch : selector.switch = .error (.arityMismatch 2 selector.arity) := if_neg two
      rw [switch, exec_leftOuterJoin_of_arity_ne two]
      rfl

variable [LawfulSource σ]

/-- **A projection with a function of two parameters** found members for them, and yields what the
split function computes. -/
theorem splitsTo_of_selectSplit (remembers : ctx.splitter.Remembers s.split) {source result : σ}
    (two : selector.arity = 2)
    (h : (selectSplit source selector).exec ctx s = (.ok result, s')) :
    ctx.splitter.SplitsTo selector (elementTy source) (elementTy result) ∧
      ctx.splitter.Remembers s'.split := by
  obtain ⟨split, t, hsplit, h⟩ := QueryM.exec_bind_eq_ok_iff.mp h
  obtain ⟨after, remembers, run, -⟩ := exec_splitAgainst remembers source
    (takesElement_eq_false two _)
  rw [run, Prod.mk.injEq] at hsplit
  obtain ⟨outcome, rfl⟩ := hsplit
  obtain ⟨-, yields, same⟩ := LawfulSource.project_ok h
  rw [same]
  refine ⟨?_, remembers⟩
  obtain ⟨plan, planned, rfl⟩ := map_eq_ok_iff.mp (mapError_eq_ok_iff.mp outcome)
  exact ⟨plan, _, planned, yields.symm⟩

/-- **Join rows** are of the type of join rows. -/
theorem elementTy_of_joinRows {outer inner rows : σ} {outerKey innerKey : Lambda}
    (h : (joinRows outer inner outerKey innerKey).exec ctx s = (.ok rows, s')) :
    elementTy rows = JoinRow.ty (elementTy outer) (elementTy inner).option ∧
      s'.split = s.split := by
  obtain ⟨grouped, t, correlated, h⟩ := QueryM.exec_bind_eq_ok_iff.mp h
  obtain ⟨hty, same⟩ := LawfulSource.correlate_ok correlated
  obtain ⟨flat, same'⟩ := LawfulSource.flatten_ok h
  rw [Query.eq_grouping_of_correlatedTy hty] at flat
  exact ⟨(Except.ok.inj flat).symm, same'.trans same⟩

/-- A left join found members for its selector. -/
theorem splitsTo_of_leftOuterJoin (remembers : ctx.splitter.Remembers s.split) {result : σ}
    (h : (leftOuterJoin outer inner outerKey innerKey selector).exec ctx s = (.ok result, s')) :
    ctx.splitter.SplitsTo selector (JoinRow.ty (elementTy outer) (elementTy inner).option)
        (elementTy result) ∧
      ctx.splitter.Remembers s'.split := by
  obtain ⟨_, t, checked, h⟩ := QueryM.exec_bind_eq_ok_iff.mp h
  rw [QueryM.exec_ofExcept, Prod.mk.injEq] at checked
  obtain ⟨checked, rfl⟩ := checked
  have two : selector.arity = 2 := by
    unfold checkSelector at checked
    split at checked
    case isTrue two => exact two
    case isFalse => cases checked
  obtain ⟨rows, t, joined, h⟩ := QueryM.exec_bind_eq_ok_iff.mp h
  obtain ⟨hty, same⟩ := elementTy_of_joinRows joined
  rw [← hty]
  exact splitsTo_of_selectSplit (same ▸ remembers) two h

/-- The rows without a match are join rows. -/
theorem elementTy_of_unmatchedRows (remembers : ctx.splitter.Remembers s.split)
    {outer inner rows : σ} {outerKey innerKey : Lambda}
    (h : (unmatchedRows outer inner outerKey innerKey).exec ctx s = (.ok rows, s')) :
    elementTy rows = JoinRow.ty (elementTy inner) (elementTy outer).option ∧
      ctx.splitter.Remembers s'.split := by
  obtain ⟨grouped, t₁, correlated, h⟩ := QueryM.exec_bind_eq_ok_iff.mp h
  obtain ⟨empty, t₂, predicate, h⟩ := QueryM.exec_bind_eq_ok_iff.mp h
  obtain ⟨kept, t₃, filtered, flattened⟩ := QueryM.exec_bind_eq_ok_iff.mp h
  obtain ⟨g, t₄, param, predicate⟩ := QueryM.exec_bind_eq_ok_iff.mp predicate
  rw [QueryM.exec_read_bind] at predicate
  obtain ⟨group, t₅, access, predicate⟩ := QueryM.exec_bind_eq_ok_iff.mp predicate
  rw [QueryM.exec_ofExcept, Prod.mk.injEq] at access
  obtain ⟨-, rfl⟩ := access
  cases predicate
  cases param
  obtain ⟨hty, same⟩ := LawfulSource.correlate_ok correlated
  obtain ⟨-, hkept, same'⟩ := LawfulSource.filter_ok filtered
  obtain ⟨flat, same''⟩ := LawfulSource.flatten_ok flattened
  rw [hkept, Query.eq_grouping_of_correlatedTy hty] at flat
  refine ⟨(Except.ok.inj flat).symm, ?_⟩
  rw [same'', same']
  exact fun key plan found => remembers key plan (same ▸ found)

/-- **The second half** exchanged the selector's parameters and found members for them. -/
theorem splitsTo_of_secondHalf (remembers : ctx.splitter.Remembers s.split) {result : σ}
    (h : (secondHalf outer inner outerKey innerKey selector).exec ctx s = (.ok result, s')) :
    ∃ switched, selector.switch = .ok switched ∧ ctx.splitter.SplitsTo switched
      (JoinRow.ty (elementTy inner) (elementTy outer).option) (elementTy result) := by
  rw [exec_secondHalf] at h
  cases strategy : ctx.join.fullJoin with
  | antiJoin =>
      rw [strategy] at h
      obtain ⟨switched, two, exchanged, h⟩ := exec_after_switch h
      obtain ⟨rows, t, hrows, h⟩ := QueryM.exec_bind_eq_ok_iff.mp h
      obtain ⟨hty, remembers⟩ := elementTy_of_unmatchedRows remembers hrows
      exact ⟨switched, exchanged, hty ▸ (splitsTo_of_selectSplit remembers two h).1⟩
  | union =>
      rw [strategy] at h
      obtain ⟨switched, two, exchanged, h⟩ := exec_after_switch h
      obtain ⟨rows, t, hrows, h⟩ := QueryM.exec_bind_eq_ok_iff.mp h
      obtain ⟨hty, same⟩ := elementTy_of_joinRows hrows
      exact ⟨switched, exchanged, hty ▸ (splitsTo_of_selectSplit (same ▸ remembers) two h).1⟩

/-- **A full join found members for its selector in both halves**: over join rows of outer and
inner elements, and, the parameters exchanged, over join rows of inner and outer elements. -/
theorem planOf_of_fullOuterJoin (remembers : ctx.splitter.Remembers s.split) {result : σ}
    (h : (fullOuterJoin outer inner outerKey innerKey selector).exec ctx s = (.ok result, s')) :
    ∃ switched, selector.switch = .ok switched ∧
      (∃ plan, ctx.splitter.planOf selector
        (JoinRow.ty (elementTy outer) (elementTy inner).option) = .ok plan) ∧
      ∃ plan, ctx.splitter.planOf switched
        (JoinRow.ty (elementTy inner) (elementTy outer).option) = .ok plan := by
  rw [exec_fullOuterJoin] at h
  obtain ⟨left, t₁, hleft, h⟩ := QueryM.exec_bind_eq_ok_iff.mp h
  obtain ⟨right, t₂, hright, -⟩ := QueryM.exec_bind_eq_ok_iff.mp h
  obtain ⟨splits, remembers⟩ := splitsTo_of_leftOuterJoin remembers hleft
  obtain ⟨switched, exchanged, splits'⟩ := splitsTo_of_secondHalf remembers hright
  exact ⟨switched, exchanged, splits.exists_planOf, splits'.exists_planOf⟩

end Source

end RowQuery
