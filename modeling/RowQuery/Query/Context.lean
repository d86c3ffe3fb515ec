import RowQuery.Config.Basic
import RowQuery.Eval.Basic
import RowQuery.Query.Error
import RowQuery.Query.JoinCarriers

/-!
# Contexts and computations of queries

* `QueryContext` — what stays the same for all queries: the splitter, the options of joins, and how
  deep calls may nest.
* `Session` — what queries leave behind: remembered plans, ids that were handed out, and the
  numbers of closures and of plan nodes.
* `RowM` — computations that evaluate functions on rows.
* `QueryM` — computations that compose queries.  What they did to the session stays done when they
  fail.

A run has one context, which all of its sources share: sequences and plans do not carry one of their
own, so sources of different contexts are never put together.  Where two contexts are compared, the
whole query is run in each of them.
-/

namespace RowQuery

/-- **What stays the same for all queries.** -/
structure QueryContext where
  splitter : Splitter
  join : JoinOptions := {}
  /-- How deep the calls of one evaluation may nest. -/
  callDepth : Nat
  deriving Repr, Inhabited

namespace QueryContext

/-- **The context of a schema and a configuration.**  The carriers of joins are added to the
schema. -/
def ofSchema (schema : Schema) (config : Config) (callDepth : Nat) :
    Except SchemaError QueryContext := do
  let schema ← schema.defineJoinCarriers
  return { splitter := { schema, options := config.split }, join := config.join, callDepth }

/-- The struct definitions in scope. -/
def schema (ctx : QueryContext) : Schema := ctx.splitter.schema

end QueryContext

/-- **What queries leave behind.** -/
structure Session where
  split : SplitState := {}
  /-- The number of the next closure. -/
  closures : Nat := 0
  /-- The number of the next plan node. -/
  nodes : Nat := 0
  deriving Repr, Inhabited

/-! ## Rows -/

/-- **Computations on rows**: the state is the number of the next closure. -/
abbrev RowM := StateT Nat (Except QueryError)

namespace RowM

/-- An outcome that makes no closures. -/
def ofExcept {α : Type} (r : Except QueryError α) : RowM α := fun closures => do
  return (← r, closures)

/-- An evaluation as a computation on rows. -/
def ofEval {α : Type} (m : EvalM α) : RowM α := fun closures =>
  match m closures with
  | .ok (a, next) => .ok (a, next)
  | .error (.fault e) => .error (.eval e)
  | .error .depth => .error .callDepth

end RowM

/-- The value of a function of one parameter on a row. -/
def Lambda.onRow (f : Lambda) (callDepth : Nat) (row : Value) : RowM Value :=
  .ofEval (f.call callDepth [row])

/-! ## Queries -/

/-- **Computations of queries.** -/
abbrev QueryM := ReaderT QueryContext (ExceptT QueryError (StateM Session))

namespace QueryM

/-- An outcome that leaves nothing behind. -/
def ofExcept {α : Type} (r : Except QueryError α) : QueryM α := fun _ => ExceptT.mk (pure r)

/-- Splitting within a query. -/
def ofSplit {α : Type} (m : SplitM α) : QueryM α := fun _ => ExceptT.mk fun session =>
  let (r, split) := m.run.run session.split
  (r.mapError .split, { session with split })

/-- Evaluation on rows within a query. -/
def ofRows {α : Type} (m : RowM α) : QueryM α := fun _ => ExceptT.mk fun session =>
  match m session.closures with
  | .ok (a, closures) => (.ok a, { session with closures })
  | .error e => (.error e, session)

/-- The number of a new plan node. -/
def newNode : QueryM Nat := fun _ => ExceptT.mk fun session =>
  (.ok session.nodes, { session with nodes := session.nodes + 1 })

end QueryM

end RowQuery
