import RowQuery.Proofs.Query.CheckedPlans
import RowQuery.Proofs.Query.FullJoinRun
import RowQuery.Proofs.Query.SingleEvaluation

/-!
# Executing a plan is type safe

Types are checked when a plan is composed, and again when its rows are produced.  The second check
never fails: the rows of every node are of the type that the node has.  What may fail is evaluating
a function on a row, and flattening rows that are no groupings.

* `Plan.Grouped` — plans whose rows are groupings.
* `Plan.FlattensGroupings` — plans that flatten no others.
* `Plan.ScansIn` — whether a catalog has the tables of a plan.
* `Plan.Fits` — rows that are of the type of a plan, and of its shape.
* **`Plan.compute_lands`** — the operation of a node makes fitting rows of fitting ones.
* **`Plan.execute_typeSafe`** — so does the execution of every composed plan.
-/

namespace RowQuery

/-! ## Rows -/

namespace Rows

theorem eq_of_flattenOne_eq_error {row : Value} {e : QueryError} (h : flattenOne row = .error e) :
    e = .malformedRow Grouping.name := by
  unfold flattenOne at h
  split at h <;> cases h
  rfl

/-- Rows that cannot be flattened are malformed. -/
theorem eq_of_flatten_eq_error {rows : List Value} {e : QueryError} (h : flatten rows = .error e) :
    e = .malformedRow Grouping.name := by
  have fails : rows.mapM flattenOne = .error e := by
    rcases bind_eq_error_iff.mp h with h | ⟨_, _, h⟩
    · exact h
    · cases h
  clear h
  induction rows with
  | nil => cases fails
  | cons row rows ih =>
      rw [List.mapM_cons] at fails
      rcases bind_eq_error_iff.mp fails with h | ⟨_, _, fails⟩
      · exact eq_of_flattenOne_eq_error h
      · rcases bind_eq_error_iff.mp fails with h | ⟨_, _, h⟩
        · exact ih h
        · cases h

end Rows

namespace Plan

/-! ## Shapes of plans -/

/-- **Plans whose rows are groupings**: correlations, filtered or put together. -/
def Grouped : Plan → Prop
  | .correlate .. => True
  | .filter _ _ input _ => input.Grouped
  | .union _ _ left right => left.Grouped ∧ right.Grouped
  | .concat _ _ left right => left.Grouped ∧ right.Grouped
  | _ => False

/-- Whether the root, if it flattens, flattens groupings. -/
def FlattensGrouped : Plan → Prop
  | .flattenWithDefault _ _ input => input.Grouped
  | _ => True

/-- **Plans that flatten groupings only.** -/
def FlattensGroupings (p : Plan) : Prop := ∀ q ∈ p.nodes, q.FlattensGrouped

/-- Whether the root, if it reads a table, finds it with elements of its type. -/
def ScansFrom (catalog : Catalog) : Plan → Prop
  | .scan _ ty table => ∃ rows, catalog.lookup table = some rows ∧ rows.elementTy = ty
  | _ => True

/-- **Whether a catalog has the tables of a plan**, each with elements of the type that is read. -/
def ScansIn (catalog : Catalog) (p : Plan) : Prop := ∀ q ∈ p.nodes, q.ScansFrom catalog

/-- **Rows that fit a plan.** -/
structure Fits (p : Plan) (rows : Sequence) : Prop where
  elementTy_eq : rows.elementTy = p.elementTy
  areGroupings : p.Grouped → Rows.AreGroupings rows.rows

/-- Rows of two sequences fit a plan that puts them together. -/
theorem Fits.combine {p left right : Plan} {first second : Sequence} (hleft : left.Fits first)
    (hright : right.Fits second) (type : p.elementTy = left.elementTy)
    (shape : p.Grouped → left.Grouped ∧ right.Grouped) {rows : List Value}
    (sub : rows ⊆ first.rows ++ second.rows) : p.Fits ⟨first.elementTy, rows⟩ := by
  refine ⟨hleft.elementTy_eq.trans type.symm, fun grouped row hrow => ?_⟩
  rcases List.mem_append.mp (sub hrow) with hrow | hrow
  · exact hleft.areGroupings (shape grouped).1 row hrow
  · exact hright.areGroupings (shape grouped).2 row hrow

/-- **How a node may fail**: in evaluating a function, or in flattening what are no groupings. -/
def MayFail (p : Plan) (e : QueryError) : Prop :=
  e.IsEvaluation ∨ e = .malformedRow Grouping.name ∧ ¬ p.FlattensGrouped

variable {ctx : QueryContext} {catalog : Catalog} {p : Plan}

/-- **The operation of a node makes fitting rows of fitting ones.**  The types that it checks are
those that were checked when the node was composed. -/
theorem compute_lands (checked : p.Checked) (scans : p.ScansFrom catalog) {rows : List Sequence}
    (fits : List.Forall₂ Fits p.inputs rows) :
    (p.compute ctx catalog rows).Lands p.Fits p.MayFail := by
  have evaluation : ∀ e, e.IsEvaluation → p.MayFail e := fun e h => .inl h
  cases p with
  | scan id ty table =>
      obtain ⟨rows, found, same⟩ := scans
      have read : scanRows catalog table ty = .ok rows := by
        rw [scanRows, found]
        exact bind_eq_ok_iff.mpr ⟨(), Query.checkSameElements_eq_ok_iff.mpr same.symm, rfl⟩
      rw [compute, read]
      exact .pure ⟨same, False.elim⟩
  | correlate id ty outer inner outerKey innerKey =>
      obtain ⟨first, _, houter, rest, rfl⟩ := List.forall₂_cons_left_iff.mp fits
      obtain ⟨second, _, hinner, _, rfl⟩ := List.forall₂_cons_left_iff.mp rest
      have check : Query.correlatedTy first.elementTy second.elementTy outerKey innerKey =
          .ok ty := by
        rw [houter.elementTy_eq, hinner.elementTy_eq]
        exact checked
      refine .ofExcept_bind check (.bind ((Rows.correlate_ends _ _ _ _).lands evaluation) ?_)
      exact fun rows groupings => .pure ⟨rfl, fun _ => groupings⟩
  | flattenWithDefault id ty input =>
      obtain ⟨first, _, hinput, _, rfl⟩ := List.forall₂_cons_left_iff.mp fits
      have check : Query.flattenedTy first.elementTy = .ok ty := by
        rw [hinput.elementTy_eq]
        exact checked
      have flattens : (RowM.ofExcept (Rows.flatten first.rows)).Lands (fun _ => True)
          (flattenWithDefault id ty input).MayFail := by
        by_cases grouped : input.Grouped
        · exact (Rows.flatten_ends (hinput.areGroupings grouped)).lands evaluation
        · intro n
          cases h : Rows.flatten first.rows with
          | ok rows => exact trivial
          | error e => exact .inr ⟨Rows.eq_of_flatten_eq_error h, grouped⟩
      exact .ofExcept_bind check (flattens.bind fun rows _ => .pure ⟨rfl, False.elim⟩)
  | project id ty input selector =>
      obtain ⟨first, _, hinput, _, rfl⟩ := List.forall₂_cons_left_iff.mp fits
      obtain ⟨check, rfl⟩ := checked
      rw [← hinput.elementTy_eq] at check
      refine .ofExcept_bind check (.bind ((Rows.project_ends _ _).lands evaluation) ?_)
      exact fun rows _ => .pure ⟨rfl, False.elim⟩
  | filter id ty input predicate =>
      obtain ⟨first, _, hinput, _, rfl⟩ := List.forall₂_cons_left_iff.mp fits
      obtain ⟨check, rfl⟩ := checked
      rw [← hinput.elementTy_eq] at check
      refine .ofExcept_bind check (.bind ((Rows.filter_ends _ _).lands evaluation) ?_)
      exact fun rows kept => .pure ⟨hinput.elementTy_eq,
        fun grouped row hrow => hinput.areGroupings grouped row (kept hrow)⟩
  | union id ty left right =>
      obtain ⟨first, _, hleft, rest, rfl⟩ := List.forall₂_cons_left_iff.mp fits
      obtain ⟨second, _, hright, _, rfl⟩ := List.forall₂_cons_left_iff.mp rest
      obtain ⟨same, rfl⟩ := checked
      rw [← hleft.elementTy_eq, ← hright.elementTy_eq] at same
      refine .ofExcept_bind (Query.checkSameElements_eq_ok_iff.mpr same) (.pure ?_)
      refine hleft.combine hright ?_ ?_ ?_
      · rfl
      · exact fun grouped => grouped
      · exact fun row hrow => mem_of_mem_distinctBy hrow
  | concat id ty left right =>
      obtain ⟨first, _, hleft, rest, rfl⟩ := List.forall₂_cons_left_iff.mp fits
      obtain ⟨second, _, hright, _, rfl⟩ := List.forall₂_cons_left_iff.mp rest
      obtain ⟨same, rfl⟩ := checked
      rw [← hleft.elementTy_eq, ← hright.elementTy_eq] at same
      refine .ofExcept_bind (Query.checkSameElements_eq_ok_iff.mpr same) (.pure ?_)
      refine hleft.combine hright ?_ ?_ ?_
      · rfl
      · exact fun grouped => grouped
      · exact List.Subset.refl _

/-- **Executing a composed plan is type safe.**  If the tables that it reads are there, it comes to
rows of its own element type, or fails in evaluating a function on a row, or meets a row that is no
grouping.  If it flattens groupings only, it meets no such row. -/
theorem execute_typeSafe {s : Session} {plans : List Plan} (composed : Composed ctx s plans)
    (hp : p ∈ plans) (scans : p.ScansIn catalog) (closures : Nat) :
    (∃ rows n, p.execute ctx catalog closures = .ok (rows, n) ∧ rows.elementTy = p.elementTy) ∨
    ∃ e, p.execute ctx catalog closures = .error e ∧
      (e.IsEvaluation ∨ e = .malformedRow Grouping.name ∧ ¬ p.FlattensGroupings) := by
  have computes : ∀ q ∈ p.nodes, ∀ rows, List.Forall₂ Fits q.inputs rows →
      (q.compute ctx catalog rows).Lands q.Fits fun e =>
        e.IsEvaluation ∨ e = .malformedRow Grouping.name ∧ ¬ p.FlattensGroupings := by
    intro q hq rows fits
    have checked := composed.coherent.checked q (composed.coherent.closed p hp hq)
    refine (compute_lands checked (scans q hq) fits).mono fun e fails => ?_
    rcases fails with evaluation | ⟨malformed, ungrouped⟩
    · exact .inl evaluation
    · exact .inr ⟨malformed, fun grouped => ungrouped (grouped q hq)⟩
  rcases execution_lands (composed.identified hp) computes closures with
    ⟨rows, e, run, -, fits⟩ | ⟨x, e, run, allowed, -⟩
  · refine .inl ⟨rows, e.closures, ?_, fits.elementTy_eq⟩
    rw [execute, run]
    rfl
  · refine .inr ⟨x, ?_, allowed⟩
    rw [execute, run]
    rfl

/-- A table of numbers, correlated with itself and flattened. -/
def numbersJoined : Plan :=
  let numbers : Plan := .scan 0 .int "numbers"
  .flattenWithDefault 2 (JoinRow.ty .int Ty.int.option)
    (.correlate 1 (Grouping.ty .int .int) numbers numbers Source.numberKey Source.numberKey)

theorem composed_numbersJoined :
    ∃ s plans, Composed Source.exactContext s plans ∧ numbersJoined ∈ plans := by
  have numbers : Composed Source.exactContext { nodes := 1 } [.scan 0 .int "numbers"] :=
    .operation (.start {}) (.ofTable "numbers" .int) rfl
  have grouped := numbers.operation
    (.correlate List.mem_cons_self List.mem_cons_self Source.numberKey Source.numberKey) rfl
  have joined := grouped.operation (.flattenWithDefault List.mem_cons_self) rfl
  exact ⟨_, _, joined, List.mem_cons_self⟩

/-- The join of the numbers with themselves comes to one join row for each, of the type of the
plan. -/
theorem execute_typeSafe_numbersJoined :
    let catalog : Catalog := [("numbers", Source.numbers [1, 2])]
    numbersJoined.ScansIn catalog ∧ numbersJoined.FlattensGroupings ∧
    ∃ rows n, numbersJoined.execute Source.exactContext catalog 0 = .ok (rows, n) ∧
      rows.elementTy = numbersJoined.elementTy ∧
      rows.rows = [JoinRow.value (.int 1) (.int 1), JoinRow.value (.int 2) (.int 2)] := by
  intro catalog
  obtain ⟨s, plans, composed, hp⟩ := composed_numbersJoined
  have scans : numbersJoined.ScansIn catalog := by
    simp [ScansIn, ScansFrom, numbersJoined, nodes, catalog, Source.numbers]
  have flattens : numbersJoined.FlattensGroupings := by
    simp [FlattensGroupings, FlattensGrouped, Grouped, numbersJoined, nodes]
  have success : numbersJoined.execute Source.exactContext catalog 0 =
      .ok (⟨JoinRow.ty .int Ty.int.option,
        [JoinRow.value (.int 1) (.int 1), JoinRow.value (.int 2) (.int 2)]⟩, 0) := rfl
  rcases execute_typeSafe composed hp scans 0 with ⟨rows, n, run, typed⟩ | ⟨e, fails, -⟩
  · obtain ⟨rfl, rfl⟩ := Prod.mk.inj (Except.ok.inj (success.symm.trans run))
    exact ⟨scans, flattens, _, _, run, typed, rfl⟩
  · cases success.symm.trans fails

end Plan

end RowQuery
