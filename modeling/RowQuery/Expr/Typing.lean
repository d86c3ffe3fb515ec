import RowQuery.Expr.Basic

/-!
# Types of expressions

* `Expr.ty` — the type of a node: stored, or computed from the children of tuples, lists and
  nested functions.
* `UnaryOp.resultTy`, `BinaryOp.resultTy`, `Builtin.resultTy` — the type an operator gives to
  operands of known types.
* `Expr.unaryOf`, `Expr.binaryOf`, `Expr.callOf`, `Expr.iteOf`, `Expr.invokeOf` — nodes that store
  the type computed from their children.
* `Lambda.retTy`, `Lambda.paramTys`, `Lambda.ty` — the types of a function expression.
-/

namespace RowQuery

/-- The type of a constant; the absent value has the bottom type. -/
def Literal.ty : Literal → Ty
  | .unit => .unit
  | .null => .never
  | .bool _ => .bool
  | .int _ => .int
  | .str _ => .string

/-! ## Operators -/

/-- The type of an operator's result: a truth value, or the operand's own type. -/
def UnaryOp.resultTy : UnaryOp → Ty → Ty
  | .not, _ => .bool
  | .neg, operand => operand

/-- **The type of an operator's result.**  Adding to a text gives a text, other arithmetic has the
type of its left operand, comparisons and connectives are truth values, and a fallback has the
type of the right operand unless that is the bottom type. -/
def BinaryOp.resultTy : BinaryOp → Ty → Ty → Ty
  | .arith .add, lhs, rhs =>
      if lhs.stripOption = .string ∨ rhs.stripOption = .string then .string else lhs
  | .arith _, lhs, _ => lhs
  | .coalesce, lhs, rhs => if rhs = .never then lhs else rhs
  | _, _, _ => .bool

/-- The type of a built-in function's result. -/
def Builtin.resultTy : Builtin → Ty
  | .toString => .string
  | .len => .int
  | .isEmpty => .bool
  | .any => .bool

/-- The type of a conditional: that of its first branch, unless that is the bottom type. -/
def Ty.ofBranches (thenTy elseTy : Ty) : Ty :=
  if thenTy = .never then elseTy else thenTy

/-- The type that a call of a value of this type has; what is no function gives the bottom
type. -/
def Ty.resultTy : Ty → Ty
  | .fn _ result => result
  | _ => .never

/-! ## Nodes -/

namespace Expr

mutual

/-- **The type of an expression.** -/
def ty : Expr → Ty
  | .param p => p.ty
  | .lit l => l.ty
  | .member _ _ ty => ty
  | .unary _ _ ty => ty
  | .binary _ _ _ ty => ty
  | .call _ _ ty => ty
  | .ite _ _ _ ty => ty
  | .construct ty _ => ty
  | .tuple items => .tuple (tys items)
  | .list elemTy _ => .list elemTy
  | .lambda params body => .fn (params.map (·.ty)) body.ty
  | .invoke _ _ ty => ty

/-- The types of the members of a list. -/
def tys : List Expr → List Ty
  | [] => []
  | e :: es => e.ty :: tys es

end

@[simp]
theorem tys_eq_map (es : List Expr) : tys es = es.map ty := by
  induction es with
  | nil => rfl
  | cons e es ih => simp [tys, ih]

/-- An operator applied to an operand, typed by it. -/
def unaryOf (op : UnaryOp) (operand : Expr) : Expr :=
  .unary op operand (op.resultTy operand.ty)

/-- An operator applied to two operands, typed by them. -/
def binaryOf (op : BinaryOp) (lhs rhs : Expr) : Expr :=
  .binary op lhs rhs (op.resultTy lhs.ty rhs.ty)

/-- A call of a built-in function, typed by the function. -/
def callOf (func : Builtin) (args : List Expr) : Expr :=
  .call func args func.resultTy

/-- A conditional, typed by its branches. -/
def iteOf (cond thenBranch elseBranch : Expr) : Expr :=
  .ite cond thenBranch elseBranch (.ofBranches thenBranch.ty elseBranch.ty)

/-- A call of a function value, typed by its result. -/
def invokeOf (callee : Expr) (args : List Expr) : Expr :=
  .invoke callee args callee.ty.resultTy

end Expr

namespace Lambda

/-- The declared types of the parameters. -/
def paramTys (f : Lambda) : List Ty := f.params.map (·.ty)

/-- The type of the body. -/
def retTy (f : Lambda) : Ty := f.body.ty

/-- The type of the function. -/
def ty (f : Lambda) : Ty := .fn f.paramTys f.retTy

/-- A function has the type of its expression. -/
@[simp]
theorem ty_toExpr (f : Lambda) : f.toExpr.ty = f.ty := rfl

end Lambda

end RowQuery
