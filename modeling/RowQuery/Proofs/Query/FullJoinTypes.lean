import RowQuery.Proofs.Query.TypedExecution

/-!
# The halves of a full join have elements of one type

A full join splits its selector twice: over join rows of outer and inner elements and, with the
parameters exchanged, over join rows of inner and outer elements.  The two carriers differ, and so
may the members that are chosen.  An access keeps the type that its parameter declares, so both
split selectors compute results of the same type, and putting the halves together never fails for
a difference of types.

* `Splitter.SplitsTo.switch` — neither the carrier nor the order of the parameters matters for what
  a split function computes.
* `QueryM.Unmixed` — queries that do not fail by putting together different elements.
* `ComparingSource` — sources that compare element types in unions and concatenations only.
* `Source.elementTy_eq_of_halves`, `Source.exists_combineHalves` — the halves have elements of one
  type, and such halves are put together.
* **`Source.fullOuterJoin_halves`** — so a full join never fails because the halves differ.
-/

namespace RowQuery

/-! ## The type of a split function -/

namespace Splitter

variable {s : Splitter} {f g : Lambda} {carrier carrier' ty ty' : Ty}

/-- **Neither the carrier nor the order of the parameters matters** for what a split function
computes. -/
theorem SplitsTo.switch (exchanged : f.switch = .ok g) (hf : s.SplitsTo f carrier ty)
    (hg : s.SplitsTo g carrier' ty') : ty = ty' := by
  obtain ⟨p, q, hparams, rfl⟩ := Lambda.switch_eq_ok_iff.mp exchanged
  obtain ⟨plan, param, planned, rfl⟩ := hf
  obtain ⟨plan', param', planned', rfl⟩ := hg
  obtain ⟨check, -, hlen⟩ := planOf_eq_ok planned
  obtain ⟨check', -, hlen'⟩ := planOf_eq_ok planned'
  have distinct : p.id ≠ q.id := by
    have nodup := (Lambda.checkParams_eq_ok_iff.mp check).2.1
    rw [hparams] at nodup
    simpa using nodup
  refine CarrierMap.retTy_splitLambda param param' rfl check check' hlen hlen' fun id => ?_
  rw [hparams]
  exact CarrierMap.declaredTy_switch distinct id

end Splitter

/-! ## Failures by putting together different elements -/

/-- The failure of putting together sources of different elements. -/
def QueryError.IsMixture : QueryError → Prop
  | .elementTypeMismatch .. => True
  | _ => False

/-- **Outcomes other than putting together different elements.** -/
def Unmixed {α : Type} (r : Except QueryError α) : Prop :=
  ∀ e, r = .error e → ¬ e.IsMixture

namespace Unmixed

variable {α β : Type}

theorem ok (a : α) : Unmixed (.ok a) := fun _ h => nomatch h

theorem error {e : QueryError} (h : ¬ e.IsMixture) : Unmixed (.error e : Except QueryError α) := by
  rintro _ ⟨⟩
  exact h

theorem bind {r : Except QueryError α} {f : α → Except QueryError β} (hr : Unmixed r)
    (hf : ∀ a, Unmixed (f a)) : Unmixed (r >>= f) := by
  intro e fails
  rcases bind_eq_error_iff.mp fails with h | ⟨a, -, h⟩
  · exact hr e h
  · exact hf a e h

theorem ite {c : Prop} [Decidable c] {r r' : Except QueryError α} (hr : Unmixed r)
    (hr' : Unmixed r') : Unmixed (if c then r else r') := by
  split
  · exact hr
  · exact hr'

/-- A failure of splitting is another one. -/
theorem split (r : Except SplitError α) : Unmixed (r.mapError .split) := by
  cases r with
  | ok a => exact ok a
  | error e => exact error not_false

/-- So is a failure of the schema. -/
theorem schema (r : Except SchemaError α) : Unmixed (r.mapError .schema) := by
  cases r with
  | ok a => exact ok a
  | error e => exact error not_false

end Unmixed

namespace Query

theorem checkUnary_unmixed (op : String) (f : Lambda) (element : Ty) :
    Unmixed (checkUnary op f element) := by
  unfold checkUnary
  split
  · exact .ite (.ok _) (.error not_false)
  · exact .error not_false

theorem correlatedTy_unmixed (outer inner : Ty) (outerKey innerKey : Lambda) :
    Unmixed (correlatedTy outer inner outerKey innerKey) :=
  (checkUnary_unmixed _ _ _).bind fun _ => (checkUnary_unmixed _ _ _).bind fun _ =>
    .ite (.ok _) (.error not_false)

theorem flattenedTy_unmixed (grouping : Ty) : Unmixed (flattenedTy grouping) := by
  unfold flattenedTy
  split
  · exact .ite (.ok _) (.error not_false)
  · exact .error not_false

theorem checkPredicate_unmixed (predicate : Lambda) (element : Ty) :
    Unmixed (checkPredicate predicate element) :=
  (checkUnary_unmixed _ _ _).bind fun _ => .ite (.ok _) (.error not_false)

end Query

theorem Rows.flatten_unmixed (rows : List Value) : Unmixed (Rows.flatten rows) := by
  intro e fails
  rw [Rows.eq_of_flatten_eq_error fails]
  exact not_false

namespace RowM

/-- **Computations on rows** that do not fail by putting together different elements. -/
abbrev Unmixed {α : Type} (c : RowM α) : Prop := c.Lands (fun _ => True) fun e => ¬ e.IsMixture

variable {α β : Type}

theorem Unmixed.ofExcept {r : Except QueryError α} (h : RowQuery.Unmixed r) :
    Unmixed (RowM.ofExcept r) := by
  intro n
  cases r with
  | ok a => exact trivial
  | error e => exact h e rfl

/-- Failures of evaluation are others. -/
theorem Unmixed.of_ends {P : α → Prop} {c : RowM α} (h : Ends P c) : Unmixed c := by
  intro n
  have ends := h n
  generalize c n = r at ends ⊢
  match r with
  | .ok _ => exact trivial
  | .error (.eval _) => exact not_false
  | .error .callDepth => exact not_false

/-- A computation on rows after a check. -/
theorem Unmixed.after {r : Except QueryError α} {c : RowM β} {γ : Type} {f : α → β → γ}
    (check : RowQuery.Unmixed r) (hc : Unmixed c) :
    Unmixed (do let a ← RowM.ofExcept r; return f a (← c)) :=
  Lands.bind (Unmixed.ofExcept check) fun _ _ => Lands.bind hc fun _ _ => .pure trivial

end RowM

namespace QueryM

variable {α β : Type} {ctx : QueryContext} {s : Session}

/-- **Queries that do not fail by putting together different elements**, in any session. -/
def Unmixed (ctx : QueryContext) (m : QueryM α) : Prop :=
  ∀ s, RowQuery.Unmixed (m.exec ctx s).1

namespace Unmixed

theorem bind {m : QueryM α} {f : α → QueryM β} (hm : Unmixed ctx m)
    (hf : ∀ a, Unmixed ctx (f a)) : Unmixed ctx (m >>= f) := by
  intro s
  have first := hm s
  rw [exec_bind]
  generalize m.exec ctx s = r at first ⊢
  match r with
  | (.ok a, t) => exact hf a t
  | (.error e, t) => exact .error (first e rfl)

theorem pure (a : α) : Unmixed ctx (Pure.pure a : QueryM α) := fun _ => .ok a

theorem ofExcept {r : Except QueryError α} (h : RowQuery.Unmixed r) : Unmixed ctx (ofExcept r) :=
  fun _ => h

theorem ofSplit (m : SplitM α) : Unmixed ctx (ofSplit m) := fun _ => .split _

theorem read {f : QueryContext → QueryM β} (h : Unmixed ctx (f ctx)) :
    Unmixed ctx (MonadReader.read >>= f) := h

theorem newNode : Unmixed ctx newNode := fun _ => .ok _

theorem ofRows {m : RowM α} (h : m.Unmixed) : Unmixed ctx (ofRows m) := by
  intro s
  have lands := h s.closures
  rw [exec_ofRows]
  generalize m s.closures = r at lands ⊢
  match r with
  | .ok (a, closures) => exact .ok a
  | .error e => exact .error lands

end Unmixed

end QueryM

/-! ## Sources that compare element types -/

open Source

/-- **Sources that compare element types in unions and concatenations only**, and put together what
is of one type. -/
class ComparingSource (σ : Type) [Source σ] : Prop extends LawfulSource σ where
  correlate_unmixed (ctx : QueryContext) (outer inner : σ) (outerKey innerKey : Lambda) :
    (correlate outer inner outerKey innerKey).Unmixed ctx
  flatten_unmixed (ctx : QueryContext) (source : σ) : (flattenWithDefault source).Unmixed ctx
  project_unmixed (ctx : QueryContext) (source : σ) (selector : Lambda) :
    (project source selector).Unmixed ctx
  filter_unmixed (ctx : QueryContext) (source : σ) (predicate : Lambda) :
    (filter source predicate).Unmixed ctx
  exists_union (ctx : QueryContext) (s : Session) {left right : σ}
    (same : elementTy left = elementTy right) :
    ∃ result s', (union left right).exec ctx s = (.ok result, s')
  exists_concat (ctx : QueryContext) (s : Session) {left right : σ}
    (same : elementTy left = elementTy right) :
    ∃ result s', (concat left right).exec ctx s = (.ok result, s')

/-- Sequences compare element types in unions and concatenations only. -/
instance instComparingSequence : ComparingSource Sequence where
  correlate_unmixed _ _ _ _ _ := .read <| .ofRows <| .after (Query.correlatedTy_unmixed _ _ _ _) <|
    .of_ends (Rows.correlate_ends _ _ _ _)
  flatten_unmixed _ _ := .ofRows <| .after (Query.flattenedTy_unmixed _) <|
    .ofExcept (Rows.flatten_unmixed _)
  project_unmixed _ _ _ := .read <| .ofRows <| .after (Query.checkUnary_unmixed _ _ _) <|
    .of_ends (Rows.project_ends _ _)
  filter_unmixed _ _ _ := .read <| .ofRows <| .after (Query.checkPredicate_unmixed _ _) <|
    .of_ends (Rows.filter_ends _ _)
  exists_union ctx s left right same := by
    have check : Query.checkSameElements "union" left.elementTy right.elementTy = .ok () :=
      Query.checkSameElements_eq_ok_iff.mpr same
    have run : left.union right s.closures =
        .ok (⟨left.elementTy, Rows.union left.rows right.rows⟩, s.closures) := by
      rw [Sequence.union, check]
      rfl
    exact ⟨_, _, (QueryM.exec_ofRows_eq_ok_iff ctx).mpr ⟨_, run, rfl⟩⟩
  exists_concat ctx s left right same := by
    have check : Query.checkSameElements "concat" left.elementTy right.elementTy = .ok () :=
      Query.checkSameElements_eq_ok_iff.mpr same
    have run : left.concat right s.closures =
        .ok (⟨left.elementTy, left.rows ++ right.rows⟩, s.closures) := by
      rw [Sequence.concat, check]
      rfl
    exact ⟨_, _, (QueryM.exec_ofRows_eq_ok_iff ctx).mpr ⟨_, run, rfl⟩⟩

/-- Making a node after a check fails as the check does. -/
theorem QueryM.Unmixed.node {α : Type} {ctx : QueryContext} {check : Except QueryError α}
    (h : RowQuery.Unmixed check) (node : α → Nat → Plan) :
    QueryM.Unmixed ctx (do let a ← QueryM.ofExcept check; return node a (← QueryM.newNode)) :=
  .bind (.ofExcept h) fun _ => .bind .newNode fun _ => .pure _

/-- Plans compare element types in unions and concatenations only. -/
instance instComparingPlan : ComparingSource Plan where
  correlate_unmixed _ _ _ _ _ := .node (Query.correlatedTy_unmixed _ _ _ _) _
  flatten_unmixed _ _ := .node (Query.flattenedTy_unmixed _) _
  project_unmixed _ _ _ := .node (Query.checkUnary_unmixed _ _ _) _
  filter_unmixed _ _ _ := .node (Query.checkPredicate_unmixed _ _) _
  exists_union ctx s left right same := by
    have check : Query.checkSameElements "union" left.elementTy right.elementTy = .ok () :=
      Query.checkSameElements_eq_ok_iff.mpr same
    simp only [union, check]
    exact ⟨_, _, rfl⟩
  exists_concat ctx s left right same := by
    have check : Query.checkSameElements "concat" left.elementTy right.elementTy = .ok () :=
      Query.checkSameElements_eq_ok_iff.mpr same
    simp only [concat, check]
    exact ⟨_, _, rfl⟩

/-! ## Putting the halves together -/

namespace Source

variable {σ : Type} [Source σ] (ctx : QueryContext)

theorem splitAgainst_unmixed (source : σ) (f : Lambda) :
    (splitAgainst source f).Unmixed ctx := by
  unfold splitAgainst
  dsimp only
  split
  · exact .pure _
  · exact .read (.ofSplit _)

theorem emptyGroup_unmixed (grouped : σ) : (emptyGroup grouped).Unmixed ctx :=
  .bind (.ofSplit _) fun _ => .read <| .bind (.ofExcept (.schema _)) fun _ => .pure _

theorem checkSelector_unmixed (selector : Lambda) : Unmixed (checkSelector selector) :=
  .ite (.ok _) (.error not_false)

variable [ComparingSource σ]

theorem selectSplit_unmixed (source : σ) (selector : Lambda) :
    (selectSplit source selector).Unmixed ctx :=
  .bind (splitAgainst_unmixed ctx source selector) fun _ => ComparingSource.project_unmixed ctx _ _

theorem joinRows_unmixed (outer inner : σ) (outerKey innerKey : Lambda) :
    (joinRows outer inner outerKey innerKey).Unmixed ctx :=
  .bind (ComparingSource.correlate_unmixed ctx _ _ _ _) fun _ =>
    ComparingSource.flatten_unmixed ctx _

theorem unmatchedRows_unmixed (outer inner : σ) (outerKey innerKey : Lambda) :
    (unmatchedRows outer inner outerKey innerKey).Unmixed ctx :=
  .bind (ComparingSource.correlate_unmixed ctx _ _ _ _) fun grouped =>
    .bind (emptyGroup_unmixed ctx grouped) fun _ =>
      .bind (ComparingSource.filter_unmixed ctx _ _) fun _ => ComparingSource.flatten_unmixed ctx _

/-- The first half compares no element types. -/
theorem leftOuterJoin_unmixed (outer inner : σ) (outerKey innerKey selector : Lambda) :
    (leftOuterJoin outer inner outerKey innerKey selector).Unmixed ctx :=
  .bind (.ofExcept (checkSelector_unmixed selector)) fun _ =>
    .bind (joinRows_unmixed ctx _ _ _ _) fun _ => selectSplit_unmixed ctx _ _

/-- Nor does the second half. -/
theorem secondHalf_unmixed (outer inner : σ) (outerKey innerKey selector : Lambda) :
    (secondHalf outer inner outerKey innerKey selector).Unmixed ctx := by
  intro s
  rw [exec_secondHalf]
  cases ctx.join.fullJoin with
  | antiJoin =>
      exact QueryM.Unmixed.bind (.ofExcept (.split _)) (fun _ =>
        .bind (unmatchedRows_unmixed ctx _ _ _ _) fun _ => selectSplit_unmixed ctx _ _) s
  | union =>
      exact QueryM.Unmixed.bind (.ofExcept (.split _)) (fun _ =>
        .bind (joinRows_unmixed ctx _ _ _ _) fun _ => selectSplit_unmixed ctx _ _) s

/-- Halves with elements of one type are put together. -/
theorem exists_combineHalves (s : Session) {left right : σ}
    (same : elementTy left = elementTy right) :
    ∃ result s', (combineHalves left right).exec ctx s = (.ok result, s') ∧
      elementTy result = elementTy left := by
  simp only [exec_combineHalves]
  cases ctx.join.fullJoin with
  | antiJoin =>
      obtain ⟨result, s', run⟩ := ComparingSource.exists_concat ctx s same
      exact ⟨result, s', run, (LawfulSource.concat_ok run).2.1⟩
  | union =>
      obtain ⟨result, s', run⟩ := ComparingSource.exists_union ctx s same
      exact ⟨result, s', run, (LawfulSource.union_ok run).2.1⟩

variable {ctx} {outer inner : σ} {outerKey innerKey selector : Lambda} {s t s' t' : Session}

/-- **The halves have elements of one type**, whatever was done before each of them. -/
theorem elementTy_eq_of_halves {left right : σ} (remembers : ctx.splitter.Remembers s.split)
    (remembers' : ctx.splitter.Remembers t.split)
    (hleft : (leftOuterJoin outer inner outerKey innerKey selector).exec ctx s = (.ok left, s'))
    (hright : (secondHalf outer inner outerKey innerKey selector).exec ctx t = (.ok right, t')) :
    elementTy left = elementTy right := by
  obtain ⟨splits, -⟩ := splitsTo_of_leftOuterJoin remembers hleft
  obtain ⟨switched, exchanged, splits'⟩ := splitsTo_of_secondHalf remembers' hright
  exact splits.switch exchanged splits'

/-- A full join does not fail by putting together different elements. -/
theorem fullOuterJoin_unmixed (remembers : ctx.splitter.Remembers s.split) :
    Unmixed ((fullOuterJoin outer inner outerKey innerKey selector).exec ctx s).1 := by
  rw [exec_fullOuterJoin, QueryM.exec_bind]
  have first := leftOuterJoin_unmixed ctx outer inner outerKey innerKey selector s
  rcases hleft : (leftOuterJoin outer inner outerKey innerKey selector).exec ctx s with
    ⟨_ | left, t⟩
  · rw [hleft] at first
    exact .error (first _ rfl)
  · show Unmixed (QueryM.exec (secondHalf outer inner outerKey innerKey selector >>= _) ctx t).1
    rw [QueryM.exec_bind]
    have second := secondHalf_unmixed ctx outer inner outerKey innerKey selector t
    rcases hright : (secondHalf outer inner outerKey innerKey selector).exec ctx t with
      ⟨_ | right, t'⟩
    · rw [hright] at second
      exact .error (second _ rfl)
    · have remembers' := (splitsTo_of_leftOuterJoin remembers hleft).2
      have same := elementTy_eq_of_halves remembers remembers' hleft hright
      obtain ⟨joined, after, combined, -⟩ := exists_combineHalves ctx t' same
      show Unmixed ((combineHalves left right).exec ctx t').1
      rw [combined]
      exact .ok joined

/-- **Full joins put together equal elements.**  If both halves are composed, whichever state of
the memory each of them starts from, their elements are of one type; if they are composed one after
the other, so is the join, with elements of that type.  A full join never fails because the
elements of its halves differ. -/
theorem fullOuterJoin_halves (reached : ctx.splitter.Reached s.split) (outer inner : σ)
    (outerKey innerKey selector : Lambda) :
    (∀ t s' t' left right, ctx.splitter.Reached t.split →
      (leftOuterJoin outer inner outerKey innerKey selector).exec ctx s = (.ok left, s') →
      (secondHalf outer inner outerKey innerKey selector).exec ctx t = (.ok right, t') →
      elementTy left = elementTy right) ∧
    (∀ t t' left right,
      (leftOuterJoin outer inner outerKey innerKey selector).exec ctx s = (.ok left, t) →
      (secondHalf outer inner outerKey innerKey selector).exec ctx t = (.ok right, t') →
      ∃ joined after, (fullOuterJoin outer inner outerKey innerKey selector).exec ctx s =
          (.ok joined, after) ∧
        elementTy joined = elementTy left ∧ elementTy joined = elementTy right) ∧
    ∀ op left right, ((fullOuterJoin outer inner outerKey innerKey selector).exec ctx s).1 ≠
      .error (.elementTypeMismatch op left right) := by
  refine ⟨fun t s' t' left right reached' =>
    elementTy_eq_of_halves reached.remembers reached'.remembers, ?_, ?_⟩
  · intro t t' left right hleft hright
    have remembers := (splitsTo_of_leftOuterJoin reached.remembers hleft).2
    have same := elementTy_eq_of_halves reached.remembers remembers hleft hright
    obtain ⟨joined, after, combined, type⟩ := exists_combineHalves ctx t' same
    refine ⟨joined, after, ?_, type, type.trans same⟩
    rw [exec_fullOuterJoin]
    exact QueryM.exec_bind_eq_ok_iff.mpr ⟨left, t, hleft,
      QueryM.exec_bind_eq_ok_iff.mpr ⟨right, t', hright, combined⟩⟩
  · intro op l r fails
    exact fullOuterJoin_unmixed reached.remembers _ fails trivial

/-- Two sequences of numbers are joined: both halves are composed, and their elements are pairs of
a number and an optional one. -/
theorem fullOuterJoin_halves_numbers :
    ∃ left right t t',
      (leftOuterJoin (numbers [1, 2]) (numbers [2, 3]) numberKey numberKey numberPair).exec
          exactContext {} = (.ok left, t) ∧
      (secondHalf (numbers [1, 2]) (numbers [2, 3]) numberKey numberKey numberPair).exec
          exactContext t = (.ok right, t') ∧
      elementTy left = elementTy right ∧
      ∃ joined after,
        (fullOuterJoin (numbers [1, 2]) (numbers [2, 3]) numberKey numberKey numberPair).exec
            exactContext {} = (.ok joined, after) ∧
          elementTy joined = elementTy left ∧ elementTy joined = elementTy right := by
  have start : exactContext.splitter.Reached (Session.split {}) := .start {}
  obtain ⟨-, composed, -⟩ := fullOuterJoin_halves start
    (numbers [1, 2]) (numbers [2, 3]) numberKey numberKey numberPair
  obtain ⟨joined, after, run, hleft, hright⟩ := composed _ _ _ _ rfl rfl
  exact ⟨_, _, _, _, rfl, rfl, hleft.symm.trans hright, joined, after, run, hleft, hright⟩

end Source

end RowQuery
