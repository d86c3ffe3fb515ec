import RowQuery.Schema.Basic

/-!
# The carriers of joins

Two structs carry the rows of a join.

* `Grouping<O, I>` — an outer element with the list of the inner elements that match it.
* `JoinRow<O, I>` — an outer element with one inner element.

`Schema.defineJoinCarriers` adds both to a schema.
-/

namespace RowQuery

namespace Grouping

/-- The name of the struct. -/
def name : String := "Grouping"

/-- The field of the outer element. -/
def outer : String := "outer"

/-- The field of the matching inner elements. -/
def group : String := "group"

/-- The type of groupings. -/
def ty (outerTy innerTy : Ty) : Ty := .struct name [outerTy, innerTy]

/-- A grouping. -/
def value (outerValue : Value) (members : List Value) : Value :=
  .record name [(outer, outerValue), (group, .list members)]

/-- The definition of the struct. -/
def definition : StructDef where
  name
  generics := ["O", "I"]
  fields := [⟨outer, .con "O"⟩, ⟨group, .list (.con "I")⟩]

end Grouping

namespace JoinRow

/-- The name of the struct. -/
def name : String := "JoinRow"

/-- The field of the outer element. -/
def outer : String := "outer"

/-- The field of the inner element. -/
def inner : String := "inner"

/-- The type of join rows. -/
def ty (outerTy innerTy : Ty) : Ty := .struct name [outerTy, innerTy]

/-- A join row. -/
def value (outerValue innerValue : Value) : Value :=
  .record name [(outer, outerValue), (inner, innerValue)]

/-- The definition of the struct. -/
def definition : StructDef where
  name
  generics := ["O", "I"]
  fields := [⟨outer, .con "O"⟩, ⟨inner, .con "I"⟩]

end JoinRow

/-- A schema with both carriers. -/
def Schema.defineJoinCarriers (schema : Schema) : Except SchemaError Schema := do
  (← schema.define Grouping.definition).define JoinRow.definition

end RowQuery
