/-!
# JSON trees

The data in which types and expressions are stored.  Text is read and written elsewhere; here a
document is a tree.

* `Json` — the trees.  Whole numbers are exact; a number written with a fraction keeps its
  decimals and never stands for a whole one.
* `Json.struct?` — the fields of a struct.  It may be stored as an object, in any order and with
  further keys, or as the array of all its fields in their order.
* `Json.choice?` — a choice without data: its bare name, or an object with that one key and a
  null.
-/

namespace RowQuery

/-- **JSON trees.**  Objects keep their keys in order. -/
inductive Json where
  | null
  | bool (b : Bool)
  /-- A whole number. -/
  | int (n : Int)
  /-- The number `digits / 10 ^ places`, written with a fraction. -/
  | decimal (digits : Int) (places : Nat)
  | str (s : String)
  | arr (items : List Json)
  | obj (fields : List (String × Json))
  deriving Inhabited, Repr

namespace Json

/-- The text of a string. -/
def str? : Json → Option String
  | .str s => some s
  | _ => none

/-- The whole number, exact. -/
def int? : Json → Option Int
  | .int n => some n
  | _ => none

/-- The members of an array. -/
def arr? : Json → Option (List Json)
  | .arr items => some items
  | _ => none

/-- **The fields of a stored struct**, one for each of `names` and in that order.  An object may
list them in any order and hold further keys; an array holds exactly the fields. -/
def struct? (names : List String) : Json → Option (List Json)
  | .obj fields => names.mapM fun name => fields.lookup name
  | .arr items => if items.length = names.length then some items else none
  | _ => none

/-- The name of a choice stored without data. -/
def choice? : Json → Option String
  | .str name => some name
  | .obj [(name, .null)] => some name
  | _ => none

end Json

end RowQuery
