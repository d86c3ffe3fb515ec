import RowQuery.Json.Basic
import RowQuery.Ty.Basic

/-!
# The stored form of types

A type is stored as an object whose one key names its shape — `Con`, `App`, `Tuple` or `Fun` — or
as the bare word `Never`.

* `Ty.toJson` — write a type.
* `Ty.ofJson?` — read one back; anything but a stored type is refused.
* `Ty.ofJson?_toJson` — what is written is read back.
-/

namespace RowQuery.Ty

mutual

/-- **Writing a type.** -/
def toJson : Ty → Json
  | .con name => .obj [("Con", .obj [("name", .str name)])]
  | .app head args => .obj [("App", .arr [head.toJson, .arr (toJsonList args)])]
  | .tuple items => .obj [("Tuple", .arr (toJsonList items))]
  | .fn params result => .obj [("Fun", .arr [.arr (toJsonList params), result.toJson])]
  | .never => .str "Never"

/-- `Ty.toJson` on each type of a list. -/
def toJsonList : List Ty → List Json
  | [] => []
  | t :: ts => t.toJson :: toJsonList ts

end

mutual

/-- **Reading a type.** -/
def ofJson? : Json → Option Ty
  | .str "Never" => some .never
  | .obj [("Never", .null)] => some .never
  | .obj [("Con", body)] => do
      let [name] ← body.struct? ["name"] | none
      return .con (← name.str?)
  | .obj [("App", .arr [head, .arr args])] => do
      return .app (← ofJson? head) (← ofJsonList? args)
  | .obj [("Tuple", .arr items)] => return .tuple (← ofJsonList? items)
  | .obj [("Fun", .arr [.arr params, result])] => do
      return .fn (← ofJsonList? params) (← ofJson? result)
  | _ => none

/-- `Ty.ofJson?` on each member of an array; one that is no type spoils the list. -/
def ofJsonList? : List Json → Option (List Ty)
  | [] => some []
  | j :: js => do return (← ofJson? j) :: (← ofJsonList? js)

end

mutual

/-- **Round trip**: a written type reads back as itself. -/
@[simp]
theorem ofJson?_toJson : ∀ t : Ty, ofJson? t.toJson = some t
  | .con name => by simp [toJson, ofJson?, Json.struct?, Json.str?]
  | .app head args => by simp [toJson, ofJson?, ofJson?_toJson head, ofJsonList?_toJsonList args]
  | .tuple items => by simp [toJson, ofJson?, ofJsonList?_toJsonList items]
  | .fn params result => by
      simp [toJson, ofJson?, ofJsonList?_toJsonList params, ofJson?_toJson result]
  | .never => by simp [toJson, ofJson?]

/-- Written lists of types read back. -/
@[simp]
theorem ofJsonList?_toJsonList : ∀ ts : List Ty, ofJsonList? (toJsonList ts) = some ts
  | [] => by simp [toJsonList, ofJsonList?]
  | t :: ts => by simp [toJsonList, ofJsonList?, ofJson?_toJson t, ofJsonList?_toJsonList ts]

end

end RowQuery.Ty
