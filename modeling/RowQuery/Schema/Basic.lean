import RowQuery.Distinct
import RowQuery.Expr.Typing
import RowQuery.Schema.Error
import RowQuery.Ty.Instantiate
import RowQuery.Value.Basic

/-!
# Schemas: the struct definitions in scope

* `StructDef` — a struct's name, its generic parameters and its fields in order.
* `Schema.define` — add a definition; names are defined once, and fields of one definition have
  different names.
* `Schema.members` — the fields of a type in the order of their declaration, the generic
  parameters replaced by the type's arguments.
* `Schema.memberAccess` — the expression `object.member`, typed from the object's definition.
* `Schema.record` — a record of a type from its values in the order of the fields.
-/

namespace RowQuery

/-- A named, typed field. -/
structure FieldDef where
  name : String
  ty : Ty
  deriving DecidableEq, Repr

/-- **A struct definition.**  In field types a generic parameter is a constructor of its name. -/
structure StructDef where
  name : String
  generics : List String := []
  fields : List FieldDef
  deriving DecidableEq, Repr

/-- **The struct definitions in scope**, in the order in which they were made. -/
structure Schema where
  structs : List StructDef := []
  deriving Repr, Inhabited

namespace Schema

/-- The definition of a name. -/
def find? (schema : Schema) (name : String) : Option StructDef :=
  schema.structs.find? fun s => s.name == name

/-- Whether a name is defined. -/
def contains (schema : Schema) (name : String) : Bool := (schema.find? name).isSome

/-- **Adding a definition.** -/
def define (schema : Schema) (definition : StructDef) : Except SchemaError Schema :=
  if schema.contains definition.name then throw (.duplicateType definition.name)
  else
    match firstRepeat? FieldDef.name definition.fields with
    | some field => throw (.duplicateField definition.name field.name)
    | none => return ⟨schema.structs ++ [definition]⟩

/-- The names of types that have no members unless a definition takes the name. -/
def builtinNames : List String := ["Int", "String", "Bool", "Unit", "Option", "List"]

/-- **The members of a type**, in the order of their declaration. -/
def members (schema : Schema) (ty : Ty) : Except SchemaError (List FieldDef) :=
  match ty.conName? with
  | none => throw (.notAStruct ty)
  | some name =>
      match schema.find? name with
      | none => throw (if name ∈ builtinNames then .notAStruct ty else .unknownType ty)
      | some definition =>
          if ty.args.length = definition.generics.length then
            return definition.fields.map fun field =>
              ⟨field.name, field.ty.instantiate (definition.generics.zip ty.args)⟩
          else
            throw (.genericArity definition.name definition.generics.length ty.args.length)

/-- **Member access**, typed from the definition of the object's type. -/
def memberAccess (schema : Schema) (object : Expr) (member : String) :
    Except SchemaError Expr := do
  let fields ← schema.members object.ty
  match fields.find? fun field => field.name == member with
  | some field => return .member object field.name field.ty
  | none => throw (.noSuchMember object.ty member)

/-- **A record of a type**, from its values in the order of the fields. -/
def record (schema : Schema) (ty : Ty) (values : List Value) : Except SchemaError Value := do
  let fields ← schema.members ty
  if fields.length = values.length then
    return .record (ty.conName?.getD "") ((fields.map (·.name)).zip values)
  else
    throw (.recordArity ty fields.length values.length)

end Schema

end RowQuery
