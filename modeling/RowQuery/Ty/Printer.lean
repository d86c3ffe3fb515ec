import RowQuery.Text.Layout
import RowQuery.Ty.Basic

/-!
# The text of a type

* `Ty.text` — `Option<Int>`, `(Int, String)`, `(Int, Bool) -> List<Unit>`.  An application to no
  arguments reads as its head alone.
-/

namespace RowQuery.Ty

mutual

/-- How a type is written. -/
def text : Ty → String
  | .con name => name
  | .app head [] => head.text
  | .app head (arg :: args) =>
      head.text ++ "<" ++ Text.commaSeparated (arg.text :: texts args) ++ ">"
  | .tuple items => "(" ++ Text.commaSeparated (texts items) ++ ")"
  | .fn params result => "(" ++ Text.commaSeparated (texts params) ++ ") -> " ++ result.text
  | .never => "Never"

/-- How each type of a list is written. -/
def texts : List Ty → List String
  | [] => []
  | t :: ts => t.text :: texts ts

end

@[simp]
theorem texts_eq_map (ts : List Ty) : texts ts = ts.map text := by
  induction ts with
  | nil => rfl
  | cons t ts ih => simp [texts, ih]

end RowQuery.Ty
