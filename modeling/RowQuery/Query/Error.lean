import RowQuery.Eval.Error
import RowQuery.Split.Error

/-!
# Failures of queries

* `QueryError` — the causes: those of composing a query, and those of producing its rows.
* `QueryError.message` — their wording.
-/

namespace RowQuery

/-- **Why a query cannot be composed or has no rows.** -/
inductive QueryError where
  /-- A function cannot be split or reordered, or takes a wrong number of parameters. -/
  | split (e : SplitError)
  /-- A type is not what the schema would need. -/
  | schema (e : SchemaError)
  /-- A function has no value on a row. -/
  | eval (e : EvalError)
  /-- Calls nest deeper than the context allows.  This marks an evaluation that has not returned
  within that depth, as one that never returns does (`Halt.depth`). -/
  | callDepth
  /-- The keys of a join have types that cannot be compared. -/
  | keyTypeMismatch (outer inner : Ty)
  /-- A function does not take the elements of the source. -/
  | selectorInputMismatch (op : String) (expected found : Ty)
  /-- Only groupings can be flattened. -/
  | notAGrouping (ty : Ty)
  /-- A filter's function is no predicate. -/
  | predicateNotBool (ty : Ty)
  /-- Two sources that are put together have different elements. -/
  | elementTypeMismatch (op : String) (left right : Ty)
  /-- The catalog has no table of that name. -/
  | unknownTable (name : String)
  /-- A row is not of the shape that its type promises. -/
  | malformedRow (name : String)
  deriving DecidableEq, Repr

/-- The wording of a failure. -/
def QueryError.message : QueryError → String
  | .split e => e.message
  | .schema e => e.message
  | .eval e => e.message
  | .callDepth => "calls are nested too deep"
  | .keyTypeMismatch outer inner =>
      s!"join key types are not comparable: outer `{outer.text}`, inner `{inner.text}`"
  | .selectorInputMismatch op expected found =>
      s!"{op}: function expects `{expected.text}` but the source yields `{found.text}`"
  | .notAGrouping ty => s!"flatten expects a correlated source, found `{ty.text}`"
  | .predicateNotBool ty => s!"predicate must return `Bool`, found `{ty.text}`"
  | .elementTypeMismatch op left right =>
      s!"{op}: element types differ (`{left.text}` vs `{right.text}`)"
  | .unknownTable name => s!"unknown table `{name}`"
  | .malformedRow name => s!"malformed {name} row"

end RowQuery
