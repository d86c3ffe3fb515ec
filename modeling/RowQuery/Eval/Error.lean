import RowQuery.Value.Printer

/-!
# Failures of evaluation

* `EvalError` — the causes, and `EvalError.message`, their wording.
* `Halt` — why an evaluation ends without a value: a failure, or calls nested deeper than the
  bound it was given.
-/

namespace RowQuery

/-- **Why an expression has no value.** -/
inductive EvalError where
  /-- A reference to a parameter that the environment does not bind. -/
  | unboundParam (name : String)
  /-- A function is given more or fewer arguments than it has parameters. -/
  | arity (expected found : Nat)
  /-- The record has no field of that name. -/
  | noSuchField (name : String)
  /-- An operation met a value it does not take; the value is given by its text. -/
  | typeMismatch (op value : String)
  | divisionByZero
  /-- The result of an operation is no machine word. -/
  | overflow (op : String)
  /-- A value that is no closure is called. -/
  | notCallable (value : String)
  deriving DecidableEq, Repr

/-- The wording of a failure. -/
def EvalError.message : EvalError → String
  | .unboundParam name => s!"parameter `{name}` is not bound"
  | .arity expected found => s!"function expects {expected} argument(s), found {found}"
  | .noSuchField name => s!"record has no field `{name}`"
  | .typeMismatch op value => s!"{op}: unsupported operand {value}"
  | .divisionByZero => "division by zero"
  | .overflow op => s!"integer overflow in `{op}`"
  | .notCallable value => s!"value {value} is not callable"

/-- A value that an operation does not take. -/
def EvalError.mismatch (op : String) (v : Value) : EvalError := .typeMismatch op v.text

/-- **Why an evaluation ends without a value.** -/
inductive Halt where
  /-- The expression has no value. -/
  | fault (e : EvalError)
  /-- Calls are nested deeper than the given bound; a greater bound may still give an answer. -/
  | depth
  deriving DecidableEq, Repr

end RowQuery
