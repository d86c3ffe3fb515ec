/-!
# The layout of composite texts

Expressions and values are written alike: tuples in brackets, lists in square brackets, records as
a name with named fields.

* `Text.ofBool` — truth values.
* `Text.listed`, `Text.tupled`, `Text.braced` — lists, tuples and records from the texts of their
  members.
-/

namespace RowQuery.Text

/-- How a truth value is written. -/
def ofBool (b : Bool) : String := if b then "true" else "false"

/-- Members separated by commas. -/
def commaSeparated (items : List String) : String := ", ".intercalate items

/-- A list: `[1, 2]`. -/
def listed (items : List String) : String := "[" ++ commaSeparated items ++ "]"

/-- A tuple: `(1, 2)`.  A single member is followed by a comma, `(1,)`. -/
def tupled (items : List String) : String :=
  "(" ++ commaSeparated items ++ (if items.length = 1 then "," else "") ++ ")"

/-- A record: `Point { x: 1, y: 2 }`. -/
def braced (name : String) (fields : List (String × String)) : String :=
  name ++ " \x7b" ++ ",".intercalate (fields.map fun (field, value) => " " ++ field ++ ": " ++ value)
    ++ " \x7d"

end RowQuery.Text
