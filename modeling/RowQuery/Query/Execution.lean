import RowQuery.Query.Plan
import RowQuery.Query.Sequence

/-!
# Executing plans

A plan is executed against named tables.  A node that several others read runs once: its rows are
kept for the next reader.  The rows of a node with one reader are not kept.

* `Catalog` — the tables.
* `Plan.uses` — how many readers each node has.
* `ExecM` — computations of execution: the rows kept so far, and the nodes evaluated so far.
* `Plan.run` — the rows of a plan within an execution.
* `Plan.execute` — the rows of a plan.
-/

namespace RowQuery

/-- **Named tables.** -/
abbrev Catalog := List (String × Sequence)

namespace Plan

/-! ## Readers -/

/-- The ids met on a walk over a plan, after those of `met`.  Every reader of a node meets it; the
inputs of a node are walked when it is met for the first time. -/
def walk : Plan → List NodeId → List NodeId
  | .scan id .., met => id :: met
  | .correlate id _ outer inner _ _, met =>
      if id ∈ met then id :: met else inner.walk (outer.walk (id :: met))
  | .flattenWithDefault id _ input, met =>
      if id ∈ met then id :: met else input.walk (id :: met)
  | .project id _ input _, met => if id ∈ met then id :: met else input.walk (id :: met)
  | .filter id _ input _, met => if id ∈ met then id :: met else input.walk (id :: met)
  | .union id _ left right, met =>
      if id ∈ met then id :: met else right.walk (left.walk (id :: met))
  | .concat id _ left right, met =>
      if id ∈ met then id :: met else right.walk (left.walk (id :: met))

/-- **The number of readers of a node** in a plan; the root has one more, who executes it. -/
def uses (plan : Plan) (id : NodeId) : Nat := (plan.walk []).count id

end Plan

/-! ## Execution -/

/-- The state of an execution. -/
structure Execution where
  /-- The number of the next closure. -/
  closures : Nat := 0
  /-- The rows kept for further readers. -/
  kept : List (NodeId × Sequence) := []
  /-- The nodes evaluated so far, the latest first. -/
  evaluated : List NodeId := []
  deriving Repr, Inhabited

/-- **Computations of execution.** -/
abbrev ExecM := ExceptT QueryError (StateM Execution)

namespace ExecM

/-- An operation on rows within an execution. -/
def ofRows {α : Type} (m : RowM α) : ExecM α := ExceptT.mk fun execution =>
  match m execution.closures with
  | .ok (a, closures) => (.ok a, { execution with closures })
  | .error e => (.error e, execution)

/-- **Running a node**: the rows kept for it, or else those of its evaluation, which are kept if
the node has several readers. -/
def node (uses : NodeId → Nat) (id : NodeId) (evaluate : ExecM Sequence) : ExecM Sequence := do
  match (← get).kept.lookup id with
  | some rows => return rows
  | none =>
      modify fun execution => { execution with evaluated := id :: execution.evaluated }
      let rows ← evaluate
      if uses id > 1 then
        modify fun execution => { execution with kept := (id, rows) :: execution.kept }
      return rows

end ExecM

namespace Plan

/-- The rows of a scanned table; they have to be of the type that the scan promises. -/
def scanRows (catalog : Catalog) (table : String) (ty : Ty) : Except QueryError Sequence :=
  match catalog.lookup table with
  | none => throw (.unknownTable table)
  | some rows => do
      Query.checkSameElements "scan" ty rows.elementTy
      return rows

/-- **The rows of a plan within an execution.** -/
def run (ctx : QueryContext) (catalog : Catalog) (uses : NodeId → Nat) : Plan → ExecM Sequence
  | .scan id ty table =>
      .node uses id (.ofRows (.ofExcept (scanRows catalog table ty)))
  | .correlate id _ outer inner outerKey innerKey =>
      .node uses id do
        let outer ← outer.run ctx catalog uses
        let inner ← inner.run ctx catalog uses
        .ofRows (outer.correlate ctx inner outerKey innerKey)
  | .flattenWithDefault id _ input =>
      .node uses id do .ofRows (← input.run ctx catalog uses).flattenWithDefault
  | .project id _ input selector =>
      .node uses id do .ofRows ((← input.run ctx catalog uses).project ctx selector)
  | .filter id _ input predicate =>
      .node uses id do .ofRows ((← input.run ctx catalog uses).filter ctx predicate)
  | .union id _ left right =>
      .node uses id do
        let left ← left.run ctx catalog uses
        .ofRows (left.union (← right.run ctx catalog uses))
  | .concat id _ left right =>
      .node uses id do
        let left ← left.run ctx catalog uses
        .ofRows (left.concat (← right.run ctx catalog uses))

/-- An execution of a plan from its beginning: the outcome, and what the execution did. -/
def execution (ctx : QueryContext) (catalog : Catalog) (plan : Plan) (closures : Nat) :
    Except QueryError Sequence × Execution :=
  (plan.run ctx catalog plan.uses).run.run { closures }

/-- **The rows of a plan.** -/
def execute (ctx : QueryContext) (catalog : Catalog) (plan : Plan) : RowM Sequence := fun closures =>
  let (outcome, after) := plan.execution ctx catalog closures
  outcome.map fun rows => (rows, after.closures)

end Plan

end RowQuery
