import RowQuery.Expr.Printer
import RowQuery.Query.Source
import RowQuery.Query.Typing

/-!
# Plans

A plan records the operations composed on tables that are named only.  Types are checked while it
is composed; rows are produced when it is executed.

* `NodeId` — the identity of a node.  A plan that feeds several others is one node with one id.
* `Plan` — the plans, with `Plan.id`, `Plan.elementTy` and `Plan.inputs`.
* `Plan.ofTable` — the plan that reads a table.
* `instSourcePlan` — plans are sources.
* `Plan.text` — one line for each node, inputs indented below it.
-/

namespace RowQuery

/-- **The identity of a plan node.** -/
abbrev NodeId := Nat

/-- **Plans.**  Every node has an id and the type of its elements. -/
inductive Plan where
  /-- The rows of a table. -/
  | scan (id : NodeId) (elementTy : Ty) (table : String)
  | correlate (id : NodeId) (elementTy : Ty) (outer inner : Plan) (outerKey innerKey : Lambda)
  | flattenWithDefault (id : NodeId) (elementTy : Ty) (input : Plan)
  | project (id : NodeId) (elementTy : Ty) (input : Plan) (selector : Lambda)
  | filter (id : NodeId) (elementTy : Ty) (input : Plan) (predicate : Lambda)
  | union (id : NodeId) (elementTy : Ty) (left right : Plan)
  | concat (id : NodeId) (elementTy : Ty) (left right : Plan)
  deriving Repr, Inhabited

namespace Plan

/-- The identity of the root node. -/
def id : Plan → NodeId
  | .scan id .. => id
  | .correlate id .. => id
  | .flattenWithDefault id .. => id
  | .project id .. => id
  | .filter id .. => id
  | .union id .. => id
  | .concat id .. => id

/-- The type of the elements. -/
def elementTy : Plan → Ty
  | .scan _ ty _ => ty
  | .correlate _ ty .. => ty
  | .flattenWithDefault _ ty _ => ty
  | .project _ ty .. => ty
  | .filter _ ty .. => ty
  | .union _ ty .. => ty
  | .concat _ ty .. => ty

/-- The plans that the root node reads, in the order in which it reads them. -/
def inputs : Plan → List Plan
  | .scan .. => []
  | .correlate _ _ outer inner _ _ => [outer, inner]
  | .flattenWithDefault _ _ input => [input]
  | .project _ _ input _ => [input]
  | .filter _ _ input _ => [input]
  | .union _ _ left right => [left, right]
  | .concat _ _ left right => [left, right]

/-! ## Composition -/

/-- **Reading a table** whose rows are of a type. -/
def ofTable (table : String) (ty : Ty) : QueryM Plan := do
  return .scan (← QueryM.newNode) ty table

end Plan

instance instSourcePlan : Source Plan where
  elementTy := Plan.elementTy
  correlate outer inner outerKey innerKey := do
    let ty ← .ofExcept (Query.correlatedTy outer.elementTy inner.elementTy outerKey innerKey)
    return .correlate (← QueryM.newNode) ty outer inner outerKey innerKey
  flattenWithDefault source := do
    let ty ← .ofExcept (Query.flattenedTy source.elementTy)
    return .flattenWithDefault (← QueryM.newNode) ty source
  project source selector := do
    QueryM.ofExcept (Query.checkUnary "project" selector source.elementTy)
    return .project (← QueryM.newNode) selector.retTy source selector
  filter source predicate := do
    QueryM.ofExcept (Query.checkPredicate predicate source.elementTy)
    return .filter (← QueryM.newNode) source.elementTy source predicate
  union left right := do
    QueryM.ofExcept (Query.checkSameElements "union" left.elementTy right.elementTy)
    return .union (← QueryM.newNode) left.elementTy left right
  concat left right := do
    QueryM.ofExcept (Query.checkSameElements "concat" left.elementTy right.elementTy)
    return .concat (← QueryM.newNode) left.elementTy left right

/-! ## Text -/

namespace Plan

/-- A line of a plan's text, at a depth. -/
def indented (depth : Nat) (line : String) : String :=
  String.ofList (List.replicate (2 * depth) ' ') ++ line

/-- The lines of a plan, from a depth on. -/
def lines (depth : Nat) : Plan → List String
  | .scan _ ty table => [indented depth s!"Scan {table}: {ty.text}"]
  | .correlate _ _ outer inner outerKey innerKey =>
      indented depth s!"Correlate {outerKey.text} = {innerKey.text}" ::
        (lines (depth + 1) outer ++ lines (depth + 1) inner)
  | .flattenWithDefault _ ty input =>
      indented depth s!"FlattenWithDefault: {ty.text}" :: lines (depth + 1) input
  | .project _ _ input selector =>
      indented depth s!"Project {selector.text}" :: lines (depth + 1) input
  | .filter _ _ input predicate =>
      indented depth s!"Filter {predicate.text}" :: lines (depth + 1) input
  | .union _ _ left right =>
      indented depth "Union" :: (lines (depth + 1) left ++ lines (depth + 1) right)
  | .concat _ _ left right =>
      indented depth "Concat" :: (lines (depth + 1) left ++ lines (depth + 1) right)

/-- **How a plan is written.** -/
def text (plan : Plan) : String := "\n".intercalate (plan.lines 0)

end Plan

end RowQuery
