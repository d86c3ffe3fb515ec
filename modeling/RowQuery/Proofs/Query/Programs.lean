import Mathlib.Data.Fin.Tuple.Basic
import RowQuery.Proofs.Alike.Value
import RowQuery.Query.Execution
import RowQuery.Query.OuterJoin

/-!
# Straight-line programs of queries

A program is a list of steps.  Each step reads a table or applies one operation to results of
earlier steps, any of them as often as it likes.  The same program can be run with sequences and
with plans.

* `Catalog.sequence`, `Catalog.scan` — a table as a sequence and as a plan that reads it.
* `Step` — the steps after a number of earlier ones; `Step.perform` — what a step does.
* `Program` — the programs; `Program.run` — the results of all steps, in order.
* `Program.declared`, `Program.ids` — the ids declared inside of a program's functions, and how many
  new ones a run may take.
-/

namespace RowQuery

namespace Catalog

/-- The table of a name. -/
def table (catalog : Catalog) (name : String) : Except QueryError Sequence :=
  match catalog.lookup name with
  | none => throw (.unknownTable name)
  | some rows => return rows

theorem table_eq_ok_iff {catalog : Catalog} {name : String} {rows : Sequence} :
    catalog.table name = .ok rows ↔ catalog.lookup name = some rows := by
  unfold table
  cases catalog.lookup name with
  | none => simp
  | some found => simp [pure, Except.pure]

/-- A table as a sequence. -/
def sequence (catalog : Catalog) (name : String) : QueryM Sequence :=
  .ofExcept (catalog.table name)

/-- The plan that reads a table. -/
def scan (catalog : Catalog) (name : String) : QueryM Plan := do
  let rows ← .ofExcept (catalog.table name)
  Plan.ofTable name rows.elementTy

/-- Tables whose rows are there when the next closure has number `n`. -/
def Known (n : Nat) (catalog : Catalog) : Prop :=
  ∀ entry ∈ catalog, ∀ row ∈ entry.2.rows, row.Known n

end Catalog

/-- **One step** after `n` earlier ones.  The latest result has index 0. -/
inductive Step (n : Nat) where
  | table (name : String)
  | correlate (outer inner : Fin n) (outerKey innerKey : Lambda)
  | flattenWithDefault (source : Fin n)
  | project (source : Fin n) (selector : Lambda)
  | filter (source : Fin n) (predicate : Lambda)
  | union (left right : Fin n)
  | concat (left right : Fin n)
  | selectSplit (source : Fin n) (selector : Lambda)
  | whereSplit (source : Fin n) (predicate : Lambda)
  | leftOuterJoin (outer inner : Fin n) (outerKey innerKey selector : Lambda)
  | rightOuterJoin (outer inner : Fin n) (outerKey innerKey selector : Lambda)
  | fullOuterJoin (outer inner : Fin n) (outerKey innerKey selector : Lambda)

namespace Step

variable {n : Nat} {σ : Type} [Source σ]

/-- **What a step does**, given how tables are read and the results of the earlier steps. -/
def perform (table : String → QueryM σ) (results : Fin n → σ) : Step n → QueryM σ
  | .table name => table name
  | .correlate outer inner outerKey innerKey =>
      Source.correlate (results outer) (results inner) outerKey innerKey
  | .flattenWithDefault source => Source.flattenWithDefault (results source)
  | .project source selector => Source.project (results source) selector
  | .filter source predicate => Source.filter (results source) predicate
  | .union left right => Source.union (results left) (results right)
  | .concat left right => Source.concat (results left) (results right)
  | .selectSplit source selector => Source.selectSplit (results source) selector
  | .whereSplit source predicate => Source.whereSplit (results source) predicate
  | .leftOuterJoin outer inner outerKey innerKey selector =>
      Source.leftOuterJoin (results outer) (results inner) outerKey innerKey selector
  | .rightOuterJoin outer inner outerKey innerKey selector =>
      Source.rightOuterJoin (results outer) (results inner) outerKey innerKey selector
  | .fullOuterJoin outer inner outerKey innerKey selector =>
      Source.fullOuterJoin (results outer) (results inner) outerKey innerKey selector

/-- The functions of a step. -/
def functions : Step n → List Lambda
  | .correlate _ _ outerKey innerKey => [outerKey, innerKey]
  | .project _ f | .filter _ f | .selectSplit _ f | .whereSplit _ f => [f]
  | .leftOuterJoin _ _ outerKey innerKey selector
  | .rightOuterJoin _ _ outerKey innerKey selector
  | .fullOuterJoin _ _ outerKey innerKey selector => [outerKey, innerKey, selector]
  | _ => []

/-- The ids declared inside of the functions of a step. -/
def declared (step : Step n) : List ParamId := step.functions.flatMap fun f => f.body.declared

/-- How many new ids a step takes at most. -/
def ids : Step n → Nat
  | .selectSplit .. | .whereSplit .. | .leftOuterJoin .. | .rightOuterJoin .. => 1
  | .fullOuterJoin .. => 3
  | _ => 0

end Step

/-- **Programs** that go on after `n` steps. -/
inductive Program : Nat → Type where
  | done {n : Nat} : Program n
  | step {n : Nat} (first : Step n) (rest : Program (n + 1)) : Program n

namespace Program

/-- **The results of all steps**, in order. -/
def run {σ : Type} [Source σ] (table : String → QueryM σ) {n : Nat} (results : Fin n → σ) :
    Program n → QueryM (List σ)
  | .done => return []
  | .step first rest => do
      let result ← first.perform table results
      return result :: (← run table (Fin.cons result results) rest)

/-- The ids declared inside of the functions of a program. -/
def declared {n : Nat} : Program n → List ParamId
  | .done => []
  | .step first rest => first.declared ++ rest.declared

/-- How many new ids a program takes at most. -/
def ids {n : Nat} : Program n → Nat
  | .done => 0
  | .step first rest => first.ids + rest.ids

end Program

end RowQuery
