import RowQuery.Expr.Basic
import RowQuery.Text.Layout
import RowQuery.Text.Quoted
import RowQuery.Ty.Printer

/-!
# The text of an expression

* `Literal.text` — constants; texts are quoted.
* `Expr.text` — operators are bracketed, a tuple of one member keeps its comma, a record is
  `Point { x: 1, y: 2 }`, and a nested function stands in brackets.
* `Lambda.text` — `|x: Int, y: String| body`.
-/

namespace RowQuery

/-- How a constant is written. -/
def Literal.text : Literal → String
  | .unit => "()"
  | .null => "null"
  | .bool b => Text.ofBool b
  | .int n => toString n.toInt
  | .str s => Text.quoted s

/-- The parameters of a function, between bars. -/
def Param.listText (params : List Param) : String :=
  "|" ++ Text.commaSeparated (params.map fun p => p.name ++ ": " ++ p.ty.text) ++ "| "

namespace Expr

mutual

/-- **How an expression is written.** -/
def text : Expr → String
  | .param p => p.name
  | .lit l => l.text
  | .member object name _ => object.text ++ "." ++ name
  | .unary op operand _ => op.symbol ++ operand.text
  | .binary op lhs rhs _ => "(" ++ lhs.text ++ " " ++ op.symbol ++ " " ++ rhs.text ++ ")"
  | .call func args _ => func.name ++ "(" ++ Text.commaSeparated (texts args) ++ ")"
  | .ite cond thenBranch elseBranch _ =>
      "if " ++ cond.text ++ " then " ++ thenBranch.text ++ " else " ++ elseBranch.text
  | .construct ty fields => Text.braced ty.text (fieldTexts fields)
  | .tuple items => Text.tupled (texts items)
  | .list _ items => Text.listed (texts items)
  | .lambda params body => "(" ++ Param.listText params ++ body.text ++ ")"
  | .invoke callee args _ => callee.text ++ "(" ++ Text.commaSeparated (texts args) ++ ")"

/-- How each member of a list is written. -/
def texts : List Expr → List String
  | [] => []
  | e :: es => e.text :: texts es

/-- How the value of each field is written. -/
def fieldTexts : List (String × Expr) → List (String × String)
  | [] => []
  | (name, e) :: fs => (name, e.text) :: fieldTexts fs

end

@[simp]
theorem texts_eq_map (es : List Expr) : texts es = es.map text := by
  induction es with
  | nil => rfl
  | cons e es ih => simp [texts, ih]

@[simp]
theorem fieldTexts_eq_map (fs : List (String × Expr)) :
    fieldTexts fs = fs.map fun f => (f.1, f.2.text) := by
  induction fs with
  | nil => rfl
  | cons f fs ih => simp [fieldTexts, ih]

end Expr

/-- **How a function is written.** -/
def Lambda.text (f : Lambda) : String := Param.listText f.params ++ f.body.text

end RowQuery
