import RowQuery.Eval.Word

/-!
# Operators on values

What operators make of values that are already there.  The absent value goes through member
access, negation and arithmetic, reads as the empty text beside a text, is neither below nor above
anything, and equals only itself.

* `Value.member`, `Value.asCondition` — member access, and the test of a conditional.
* `UnaryOp.apply` — negations.
* `BinaryOp.decided?` — the result that the left operand alone decides; the right operand is
  evaluated only if there is none.
* `BinaryOp.apply` — the result of two operands.
-/

namespace RowQuery

/-- **Member access.**  The absent value has every member, and each is absent. -/
def Value.member (name : String) : Value → Except EvalError Value
  | .null => return .null
  | .record _ fields =>
      match fields.lookup name with
      | some v => return v
      | none => throw (.noSuchField name)
  | v => throw (.mismatch "member access" v)

/-- The test of a conditional; the absent value fails it. -/
def Value.asCondition : Value → Except EvalError Bool
  | .bool b => return b
  | .null => return false
  | v => throw (.mismatch "if" v)

/-- **Operators of one operand.** -/
def UnaryOp.apply : UnaryOp → Value → Except EvalError Value
  | _, .null => return .null
  | .not, .bool b => return .bool !b
  | .neg, .int n => return .int (← negateWord n)
  | op, v => throw (.mismatch op.symbol v)

/-- **Arithmetic.**  An absent operand makes the result absent; else both have to be integers. -/
def ArithOp.apply (op : ArithOp) : Value → Value → Except EvalError Value
  | .null, _ => return .null
  | _, .null => return .null
  | .int a, .int b => return .int (← op.onWords a b)
  | .int _, v => throw (.mismatch op.symbol v)
  | v, _ => throw (.mismatch op.symbol v)

/-- Whether an ordering passes the comparison. -/
def OrderOp.admits : OrderOp → Ordering → Bool
  | .lt, o => o.isLT
  | .le, o => o.isLE
  | .gt, o => o.isGT
  | .ge, o => o.isGE

/-- **Comparison by order**, of integers or of texts; the texts are compared by code points. -/
def OrderOp.apply (op : OrderOp) : Value → Value → Except EvalError Value
  | .null, _ => return .bool false
  | _, .null => return .bool false
  | .int a, .int b => return .bool (op.admits (compare a.toInt b.toInt))
  | .str a, .str b => return .bool (op.admits (compare a b))
  | v, _ => throw (.mismatch op.symbol v)

namespace BinaryOp

/-- **The result that the left operand decides.**  A connective stops at the truth value that
settles it, and a fallback at any value that is there. -/
def decided? (op : BinaryOp) (left : Value) : Except EvalError (Option Value) :=
  match op, left with
  | .and, .bool false => return some (.bool false)
  | .and, .bool true => return none
  | .or, .bool true => return some (.bool true)
  | .or, .bool false => return none
  | .and, v => throw (.mismatch op.symbol v)
  | .or, v => throw (.mismatch op.symbol v)
  | .coalesce, .null => return none
  | .coalesce, v => return some v
  | _, _ => return none

/-- **The result of two operands**, the left one undecided. -/
def apply (op : BinaryOp) (left right : Value) : Except EvalError Value :=
  match op with
  | .arith .add =>
      match left, right with
      | .str s, v => return .str (s ++ v.render)
      | v, .str s => return .str (v.render ++ s)
      | _, _ => ArithOp.add.apply left right
  | .arith op => op.apply left right
  | .order op => op.apply left right
  | .eq => return .bool (left == right)
  | .ne => return .bool (left != right)
  | .and | .or =>
      match right with
      | .bool b => return .bool b
      | v => throw (.mismatch op.symbol v)
  | .coalesce => return right

end BinaryOp

end RowQuery
