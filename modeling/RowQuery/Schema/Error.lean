import RowQuery.Ty.Printer

/-!
# Failures of struct definitions and look-ups

* `SchemaError` — the causes.
* `SchemaError.message` — their wording.
-/

namespace RowQuery

/-- **Why a definition is refused or a type has no members.** -/
inductive SchemaError where
  /-- The name is defined already. -/
  | duplicateType (name : String)
  /-- A definition declares one field twice. -/
  | duplicateField (name field : String)
  /-- No definition of that name. -/
  | unknownType (ty : Ty)
  /-- The type is none that a definition could describe. -/
  | notAStruct (ty : Ty)
  /-- A struct type has more or fewer arguments than its definition has parameters. -/
  | genericArity (name : String) (expected found : Nat)
  /-- The struct has no member of that name. -/
  | noSuchMember (ty : Ty) (member : String)
  /-- A record is given more or fewer values than the struct has fields. -/
  | recordArity (ty : Ty) (expected found : Nat)
  deriving DecidableEq, Repr

/-- The wording of a failure. -/
def SchemaError.message : SchemaError → String
  | .duplicateType name => s!"type `{name}` is already registered"
  | .duplicateField name field => s!"struct `{name}` declares field `{field}` more than once"
  | .unknownType ty => s!"unknown type `{ty.text}`"
  | .notAStruct ty => s!"type `{ty.text}` is not a struct and has no members"
  | .genericArity name expected found =>
      s!"`{name}` expects {expected} type argument(s), found {found}"
  | .noSuchMember ty member => s!"type `{ty.text}` has no member `{member}`"
  | .recordArity ty expected found =>
      s!"`{ty.text}` has {expected} field(s), {found} value(s) given"

end RowQuery
