import RowQuery.Text.Layout
import RowQuery.Text.Quoted
import RowQuery.Value.Basic

/-!
# The text of a value

* `Value.text` — values as they are shown: texts quoted, closures by their arity alone.
* `Value.render` — values as they stand inside of other text: texts bare, and the absent value as
  the empty text.
-/

namespace RowQuery.Value

mutual

/-- **How a value is shown.** -/
def text : Value → String
  | .unit => "()"
  | .null => "null"
  | .bool b => Text.ofBool b
  | .int n => toString n.toInt
  | .str s => Text.quoted s
  | .tuple items => Text.tupled (texts items)
  | .list items => Text.listed (texts items)
  | .record name fields => Text.braced name (fieldTexts fields)
  | .closure _ f _ => "<closure/" ++ toString f.arity ++ ">"

/-- How each member of a list is shown. -/
def texts : List Value → List String
  | [] => []
  | v :: vs => v.text :: texts vs

/-- How the value of each field is shown. -/
def fieldTexts : List (String × Value) → List (String × String)
  | [] => []
  | (name, v) :: fs => (name, v.text) :: fieldTexts fs

end

@[simp]
theorem texts_eq_map (vs : List Value) : texts vs = vs.map text := by
  induction vs with
  | nil => rfl
  | cons v vs ih => simp [texts, ih]

@[simp]
theorem fieldTexts_eq_map (fs : List (String × Value)) :
    fieldTexts fs = fs.map fun f => (f.1, f.2.text) := by
  induction fs with
  | nil => rfl
  | cons f fs ih => simp [fieldTexts, ih]

/-- **How a value reads inside of other text.** -/
def render : Value → String
  | .null => ""
  | .str s => s
  | v => v.text

end RowQuery.Value
