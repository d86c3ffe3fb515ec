import RowQuery.Proofs.Alike.Reordering
import RowQuery.Proofs.Query.AlikeRows
import RowQuery.Query.Execution

/-!
# Histories

A query on sequences computes rows as it is composed; the same query on plans makes a node for each
of these computations.  A history sets the nodes beside the rows, in the order in which both came
about.  The rows of a node are those of its own operation on the rows of its inputs, which stand
earlier in the history.

* `Plan.compute` — the operation of the root node, on the rows of its inputs.
* `Plan.run_eq`, `Plan.walk_eq` — running and walking a plan, for all kinds of nodes alike.
* `Record` — a node beside the rows for which it stands.
* `Record.Computes` — the operation of the node comes to the same rows again, on rows that are
  alike those of its inputs.
* **`History`** — the histories, by the last record.
* `History.exists_inputs`, `History.apart`, `History.eq_of_id_eq` — what a history says of a record.
-/

namespace RowQuery

/-! ## All kinds of nodes alike -/

namespace Plan

/-- What holds of a plan as soon as it holds of the inputs holds of every plan. -/
theorem induct {motive : Plan → Prop} (h : ∀ p, (∀ q ∈ p.inputs, motive q) → motive p) :
    ∀ p, motive p := by
  intro p
  induction p with
  | scan => exact h _ fun q hq => nomatch hq
  | correlate _ _ _ _ _ _ outer inner => exact h _ (by simp [inputs, outer, inner])
  | flattenWithDefault _ _ _ input => exact h _ (by simp [inputs, input])
  | project _ _ _ _ input => exact h _ (by simp [inputs, input])
  | filter _ _ _ _ input => exact h _ (by simp [inputs, input])
  | union _ _ _ _ left right => exact h _ (by simp [inputs, left, right])
  | concat _ _ _ _ left right => exact h _ (by simp [inputs, left, right])

/-- **The operation of the root node**, on the rows of its inputs. -/
def compute (ctx : QueryContext) (catalog : Catalog) (p : Plan) (rows : List Sequence) :
    RowM Sequence :=
  let first := rows.getD 0 default
  let second := rows.getD 1 default
  match p with
  | .scan _ ty table => .ofExcept (scanRows catalog table ty)
  | .correlate _ _ _ _ outerKey innerKey => first.correlate ctx second outerKey innerKey
  | .flattenWithDefault .. => first.flattenWithDefault
  | .project _ _ _ selector => first.project ctx selector
  | .filter _ _ _ predicate => first.filter ctx predicate
  | .union .. => first.union second
  | .concat .. => first.concat second

/-- **Running a plan** is running its inputs and then the operation of its root. -/
theorem run_eq (ctx : QueryContext) (catalog : Catalog) (uses : NodeId → Nat) (p : Plan) :
    p.run ctx catalog uses = .node uses p.id (do
      let rows ← p.inputs.mapM (run ctx catalog uses)
      .ofRows (p.compute ctx catalog rows)) := by
  cases p <;> simp [run, id, inputs, compute]

/-- **Walking a plan** is walking its inputs where the root is met for the first time. -/
theorem walk_eq (p : Plan) (met : List NodeId) :
    p.walk met =
      if p.id ∈ met then p.id :: met else p.inputs.foldl (fun met q => q.walk met) (p.id :: met) := by
  cases p with
  | scan =>
      split <;> rfl
  | _ => rfl

end Plan

/-! ## Histories -/

/-- The closures below a number are paired with themselves. -/
def Pairing.Shares (w : Pairing) (base : Nat) : Prop := ∀ i < base, w.rel i i

/-- **A node beside the rows for which it stands.** -/
structure Record where
  plan : Plan
  rows : Sequence
  /-- The number of the next closure before the rows were computed. -/
  start : Nat
  /-- The number of the next closure after the rows were computed. -/
  stop : Nat
  types : plan.elementTy = rows.elementTy
  start_le_stop : start ≤ stop
  /-- All closures in the rows were there afterwards. -/
  alike_self : rows.Alike (.known stop stop) rows

/-- **The node computes the rows again**, whenever its inputs have alike rows.  The closures below
`base` were there before everything else. -/
def Record.Computes (ctx : QueryContext) (catalog : Catalog) (base : Nat) (r : Record)
    (inputs : List Record) : Prop :=
  ∀ (w : Pairing) (xs : List Sequence), w.left = r.start → w.Shares base →
    List.Forall₂ (fun x y => x.rows.Alike w y) inputs xs →
    ∃ k rows, r.stop = r.start + k ∧
      r.plan.compute ctx catalog xs w.right = .ok (rows, w.right + k) ∧
      r.rows.Alike (w.grow k) rows

/-- **Histories**: each record comes after those of its inputs. -/
inductive History (ctx : QueryContext) (catalog : Catalog) (base : Nat) : List Record → Prop
  | nil : History ctx catalog base []
  | snoc {records : List Record} {r : Record} (inputs : List Record)
      (before : History ctx catalog base records) (earlier : inputs ⊆ records)
      (plans : r.plan.inputs = inputs.map Record.plan)
      (after : ∀ x ∈ records, x.plan.id < r.plan.id ∧ x.stop ≤ r.start) (base_le : base ≤ r.start)
      (computes : r.Computes ctx catalog base inputs) : History ctx catalog base (records ++ [r])

namespace History

variable {ctx : QueryContext} {catalog : Catalog} {base : Nat} {records : List Record}

/-- **A record comes after those of its inputs**, and computes its rows from theirs. -/
theorem exists_inputs (h : History ctx catalog base records) {r : Record} (hr : r ∈ records) :
    base ≤ r.start ∧ ∃ inputs ⊆ records, r.plan.inputs = inputs.map Record.plan ∧
      (∀ x ∈ inputs, x.plan.id < r.plan.id ∧ x.stop ≤ r.start) ∧
      r.Computes ctx catalog base inputs := by
  induction h with
  | nil => cases hr
  | @snoc records last inputs before earlier plans after base_le computes ih =>
      rcases List.mem_append.mp hr with hr | hr
      · obtain ⟨base_le, inputs, sub, rest⟩ := ih hr
        exact ⟨base_le, inputs, List.Subset.trans sub (List.subset_append_left _ _), rest⟩
      · obtain rfl := List.mem_singleton.mp hr
        exact ⟨base_le, inputs, List.Subset.trans earlier (List.subset_append_left _ _), plans,
          fun x hx => after x (earlier hx), computes⟩

/-- **Two records are one after the other**, in their ids and in their closures. -/
theorem before_or_after (h : History ctx catalog base records) {r r' : Record} (hr : r ∈ records)
    (hr' : r' ∈ records) : r = r' ∨ (r.plan.id < r'.plan.id ∧ r.stop ≤ r'.start) ∨
      (r'.plan.id < r.plan.id ∧ r'.stop ≤ r.start) := by
  induction h with
  | nil => cases hr
  | @snoc records last inputs before earlier plans after base_le computes ih =>
      rcases List.mem_append.mp hr with old | new <;> rcases List.mem_append.mp hr' with old' | new'
      · exact ih old old'
      · obtain rfl := List.mem_singleton.mp new'
        exact .inr (.inl (after r old))
      · obtain rfl := List.mem_singleton.mp new
        exact .inr (.inr (after r' old'))
      · obtain rfl := List.mem_singleton.mp new
        exact .inl (List.mem_singleton.mp new').symm

theorem eq_of_id_eq (h : History ctx catalog base records) {r r' : Record} (hr : r ∈ records)
    (hr' : r' ∈ records) (same : r.plan.id = r'.plan.id) : r = r' := by
  rcases h.before_or_after hr hr' with eq | ⟨lt, -⟩ | ⟨lt, -⟩
  · exact eq
  · exact absurd same lt.ne
  · exact absurd same lt.ne'

/-- Different nodes made different closures. -/
theorem apart (h : History ctx catalog base records) {r r' : Record} (hr : r ∈ records)
    (hr' : r' ∈ records) (different : r.plan.id ≠ r'.plan.id) :
    r.stop ≤ r'.start ∨ r'.stop ≤ r.start := by
  rcases h.before_or_after hr hr' with rfl | ⟨-, le⟩ | ⟨-, le⟩
  · exact absurd rfl different
  · exact .inl le
  · exact .inr le

end History

end RowQuery
