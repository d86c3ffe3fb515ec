import RowQuery.Schema.Error

/-!
# Failures of splitting and of reordering parameters

* `SplitError` — the causes.  All of them arise before anything is evaluated.
* `SplitError.message` — their wording.
-/

namespace RowQuery

/-- **Why a function cannot be split or reordered.** -/
inductive SplitError where
  /-- No member of the carrier fits the expected type. -/
  | noMatchingMember (carrier expected : Ty)
  /-- Members of the carrier fit the expected type, but fewer than are needed. -/
  | insufficientMembers (carrier expected : Ty) (required found : Nat)
  /-- The function has no parameters. -/
  | emptyParameterList
  /-- Two parameters have one id. -/
  | duplicateParameter (name : String)
  /-- The body refers to a parameter that the function does not declare. -/
  | undeclaredParameter (name : String)
  /-- The function has more or fewer parameters than are asked for. -/
  | arityMismatch (expected found : Nat)
  /-- The order is no rearrangement of the positions below `arity`. -/
  | invalidPermutation (order : List Nat) (arity : Nat)
  /-- The carrier has no members to match. -/
  | schema (e : SchemaError)
  deriving DecidableEq, Repr

/-- The wording of a failure. -/
def SplitError.message : SplitError → String
  | .noMatchingMember carrier expected =>
      s!"cannot find a member of type `{expected.text}` in `{carrier.text}`"
  | .insufficientMembers carrier expected required found =>
      s!"`{carrier.text}` has {found} member(s) of type `{expected.text}`, {required} needed"
  | .emptyParameterList => "at least one parameter is required"
  | .duplicateParameter name => s!"parameter `{name}` is declared more than once"
  | .undeclaredParameter name => s!"parameter `{name}` is referenced but not declared"
  | .arityMismatch expected found =>
      s!"expected a function of {expected} parameter(s), found {found}"
  | .invalidPermutation order arity =>
      Text.listed (order.map toString) ++ s!" is not a permutation of {arity} parameter position(s)"
  | .schema e => e.message

end RowQuery
