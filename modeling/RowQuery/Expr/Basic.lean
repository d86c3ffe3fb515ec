import RowQuery.Ty.Basic

/-!
# Expression trees

Expressions over declared parameters, and functions of several parameters.  Trees are values:
every transformation builds a new tree, and each node stores or determines its type.

* `ParamId`, `Param` — a parameter is known by its id; its name is for display.
* `Literal` — constants.
* `UnaryOp`, `BinaryOp`, `Builtin` — operators and built-in functions.
* `Expr` — the trees, compared structurally (`DecidableEq Expr`).
* `Lambda` — a function expression: parameters and a body.

`Expr.induct` is induction on expressions with a hypothesis for every member of a list of
subexpressions.
-/

namespace RowQuery

/-! ## Parameters and literals -/

/-- **The identity of a parameter.**  References resolve by id, never by name. -/
structure ParamId where
  val : UInt32
  deriving DecidableEq, Repr, Inhabited

/-- A declared parameter: its identity, the name it is shown by, and its declared type. -/
structure Param where
  id : ParamId
  name : String
  ty : Ty
  deriving DecidableEq, Repr, Inhabited

/-- Constants. -/
inductive Literal where
  | unit
  /-- The absent value, which fits every type. -/
  | null
  | bool (b : Bool)
  | int (n : Int64)
  | str (s : String)
  deriving DecidableEq, Repr, Inhabited

/-! ## Operators -/

/-- Operators of one operand. -/
inductive UnaryOp where
  | not
  | neg
  deriving DecidableEq, Repr, Inhabited

/-- The arithmetic operators. -/
inductive ArithOp where
  | add
  | sub
  | mul
  | div
  | rem
  deriving DecidableEq, Repr, Inhabited

/-- The comparisons by order. -/
inductive OrderOp where
  | lt
  | le
  | gt
  | ge
  deriving DecidableEq, Repr, Inhabited

/-- Operators of two operands. -/
inductive BinaryOp where
  | arith (op : ArithOp)
  | order (op : OrderOp)
  | eq
  | ne
  | and
  | or
  /-- The left operand unless it is null, else the right one. -/
  | coalesce
  deriving DecidableEq, Repr, Inhabited

/-- The functions known to the evaluator. -/
inductive Builtin where
  /-- The text of a value; null reads as the empty text. -/
  | toString
  /-- The number of characters of a text or of members of a list. -/
  | len
  /-- Whether a list has no members. -/
  | isEmpty
  /-- Whether a predicate holds of some member of a list. -/
  | any
  deriving DecidableEq, Repr, Inhabited

namespace UnaryOp

/-- How the operator is written. -/
def symbol : UnaryOp → String
  | .not => "!"
  | .neg => "-"

end UnaryOp

namespace ArithOp

/-- How the operator is written. -/
def symbol : ArithOp → String
  | .add => "+"
  | .sub => "-"
  | .mul => "*"
  | .div => "/"
  | .rem => "%"

end ArithOp

namespace OrderOp

/-- How the operator is written. -/
def symbol : OrderOp → String
  | .lt => "<"
  | .le => "<="
  | .gt => ">"
  | .ge => ">="

end OrderOp

namespace BinaryOp

/-- How the operator is written. -/
def symbol : BinaryOp → String
  | .arith op => op.symbol
  | .order op => op.symbol
  | .eq => "=="
  | .ne => "!="
  | .and => "&&"
  | .or => "||"
  | .coalesce => "??"

end BinaryOp

namespace Builtin

/-- The name under which the function is called. -/
def name : Builtin → String
  | .toString => "to_string"
  | .len => "len"
  | .isEmpty => "is_empty"
  | .any => "any"

end Builtin

/-! ## Expressions -/

/-- **Expressions.**  Nodes whose type does not follow from their children store it. -/
inductive Expr where
  /-- A reference to a parameter. -/
  | param (p : Param)
  | lit (l : Literal)
  /-- `object.name`. -/
  | member (object : Expr) (name : String) (ty : Ty)
  | unary (op : UnaryOp) (operand : Expr) (ty : Ty)
  | binary (op : BinaryOp) (lhs rhs : Expr) (ty : Ty)
  /-- A call of a built-in function. -/
  | call (func : Builtin) (args : List Expr) (ty : Ty)
  | ite (cond thenBranch elseBranch : Expr) (ty : Ty)
  /-- A record, its fields in the listed order. -/
  | construct (ty : Ty) (fields : List (String × Expr))
  | tuple (items : List Expr)
  | list (elemTy : Ty) (items : List Expr)
  /-- A nested function expression. -/
  | lambda (params : List Param) (body : Expr)
  /-- A call of a function value. -/
  | invoke (callee : Expr) (args : List Expr) (ty : Ty)
  deriving Inhabited, Repr

/-- **A function expression**: the declared parameters, in order, and a body. -/
structure Lambda where
  params : List Param
  body : Expr
  deriving Inhabited, Repr

namespace Expr

/-- **Induction on expressions**, with a hypothesis for each member of a list of them. -/
@[induction_eliminator]
theorem induct {motive : Expr → Prop}
    (param : ∀ p, motive (.param p))
    (lit : ∀ l, motive (.lit l))
    (member : ∀ object name ty, motive object → motive (.member object name ty))
    (unary : ∀ op operand ty, motive operand → motive (.unary op operand ty))
    (binary : ∀ op lhs rhs ty, motive lhs → motive rhs → motive (.binary op lhs rhs ty))
    (call : ∀ func args ty, (∀ e ∈ args, motive e) → motive (.call func args ty))
    (ite : ∀ cond thenBranch elseBranch ty, motive cond → motive thenBranch →
      motive elseBranch → motive (.ite cond thenBranch elseBranch ty))
    (construct : ∀ ty fields, (∀ f ∈ fields, motive f.2) → motive (.construct ty fields))
    (tuple : ∀ items, (∀ e ∈ items, motive e) → motive (.tuple items))
    (list : ∀ elemTy items, (∀ e ∈ items, motive e) → motive (.list elemTy items))
    (lambda : ∀ params body, motive body → motive (.lambda params body))
    (invoke : ∀ callee args ty, motive callee → (∀ e ∈ args, motive e) →
      motive (.invoke callee args ty)) : ∀ e, motive e :=
  @Expr.rec motive (fun es => ∀ e ∈ es, motive e) (fun fs => ∀ f ∈ fs, motive f.2)
    (fun f => motive f.2)
    param lit member unary binary call ite construct tuple list lambda invoke
    (fun _ h => nomatch h)
    (fun _ _ head tail e h => by
      cases h with
      | head => exact head
      | tail _ h => exact tail e h)
    (fun _ h => nomatch h)
    (fun _ _ head tail f h => by
      cases h with
      | head => exact head
      | tail _ h => exact tail f h)
    (fun _ _ value => value)

/-! ## Equality -/

mutual

/-- Whether two expressions are the same tree. -/
def same : Expr → Expr → Bool
  | .param p, .param q => p == q
  | .lit k, .lit l => k == l
  | .member a m s, .member b n t => a.same b && m == n && s == t
  | .unary o a s, .unary p b t => o == p && a.same b && s == t
  | .binary o a b s, .binary p c d t => o == p && a.same c && b.same d && s == t
  | .call f as s, .call g bs t => f == g && sameList as bs && s == t
  | .ite a b c s, .ite d e f t => a.same d && b.same e && c.same f && s == t
  | .construct s fs, .construct t gs => s == t && sameFields fs gs
  | .tuple as, .tuple bs => sameList as bs
  | .list s as, .list t bs => s == t && sameList as bs
  | .lambda ps a, .lambda qs b => ps == qs && a.same b
  | .invoke a as s, .invoke b bs t => a.same b && sameList as bs && s == t
  | _, _ => false

/-- `Expr.same`, member by member. -/
def sameList : List Expr → List Expr → Bool
  | [], [] => true
  | a :: as, b :: bs => a.same b && sameList as bs
  | _, _ => false

/-- `Expr.same`, field by field, names included. -/
def sameFields : List (String × Expr) → List (String × Expr) → Bool
  | [], [] => true
  | (m, a) :: as, (n, b) :: bs => m == n && a.same b && sameFields as bs
  | _, _ => false

end

mutual

/-- Every expression is the same tree as itself. -/
theorem same_self : ∀ e : Expr, e.same e = true
  | .param _ => by simp [same]
  | .lit _ => by simp [same]
  | .member a _ _ => by simp [same, same_self a]
  | .unary _ a _ => by simp [same, same_self a]
  | .binary _ a b _ => by simp [same, same_self a, same_self b]
  | .call _ as _ => by simp [same, sameList_self as]
  | .ite a b c _ => by simp [same, same_self a, same_self b, same_self c]
  | .construct _ fs => by simp [same, sameFields_self fs]
  | .tuple as => by simp [same, sameList_self as]
  | .list _ as => by simp [same, sameList_self as]
  | .lambda _ a => by simp [same, same_self a]
  | .invoke a as _ => by simp [same, same_self a, sameList_self as]

/-- Every list of expressions is the same as itself. -/
theorem sameList_self : ∀ es : List Expr, sameList es es = true
  | [] => by simp [sameList]
  | e :: es => by simp [sameList, same_self e, sameList_self es]

/-- Every list of fields is the same as itself. -/
theorem sameFields_self : ∀ fs : List (String × Expr), sameFields fs fs = true
  | [] => by simp [sameFields]
  | (_, e) :: fs => by simp [sameFields, same_self e, sameFields_self fs]

end

mutual

/-- Expressions that are the same tree are equal. -/
theorem eq_of_same : ∀ {d e : Expr}, d.same e = true → d = e
  | .param _, e, h => by cases e <;> simp_all [same]
  | .lit _, e, h => by cases e <;> simp_all [same]
  | .member a _ _, e, h => by
      cases e with
      | member b _ _ =>
          simp only [same, Bool.and_eq_true, beq_iff_eq] at h
          rw [eq_of_same h.1.1, h.1.2, h.2]
      | _ => simp [same] at h
  | .unary _ a _, e, h => by
      cases e with
      | unary _ b _ =>
          simp only [same, Bool.and_eq_true, beq_iff_eq] at h
          rw [h.1.1, eq_of_same h.1.2, h.2]
      | _ => simp [same] at h
  | .binary _ a b _, e, h => by
      cases e with
      | binary _ c d _ =>
          simp only [same, Bool.and_eq_true, beq_iff_eq] at h
          rw [h.1.1.1, eq_of_same h.1.1.2, eq_of_same h.1.2, h.2]
      | _ => simp [same] at h
  | .call _ as _, e, h => by
      cases e with
      | call _ bs _ =>
          simp only [same, Bool.and_eq_true, beq_iff_eq] at h
          rw [h.1.1, eq_of_sameList h.1.2, h.2]
      | _ => simp [same] at h
  | .ite a b c _, e, h => by
      cases e with
      | ite d e f _ =>
          simp only [same, Bool.and_eq_true, beq_iff_eq] at h
          rw [eq_of_same h.1.1.1, eq_of_same h.1.1.2, eq_of_same h.1.2, h.2]
      | _ => simp [same] at h
  | .construct _ fs, e, h => by
      cases e with
      | construct _ gs =>
          simp only [same, Bool.and_eq_true, beq_iff_eq] at h
          rw [h.1, eq_of_sameFields h.2]
      | _ => simp [same] at h
  | .tuple as, e, h => by
      cases e with
      | tuple bs =>
          simp only [same] at h
          rw [eq_of_sameList h]
      | _ => simp [same] at h
  | .list _ as, e, h => by
      cases e with
      | list _ bs =>
          simp only [same, Bool.and_eq_true, beq_iff_eq] at h
          rw [h.1, eq_of_sameList h.2]
      | _ => simp [same] at h
  | .lambda _ a, e, h => by
      cases e with
      | lambda _ b =>
          simp only [same, Bool.and_eq_true, beq_iff_eq] at h
          rw [h.1, eq_of_same h.2]
      | _ => simp [same] at h
  | .invoke a as _, e, h => by
      cases e with
      | invoke b bs _ =>
          simp only [same, Bool.and_eq_true, beq_iff_eq] at h
          rw [eq_of_same h.1.1, eq_of_sameList h.1.2, h.2]
      | _ => simp [same] at h

/-- Lists of expressions that agree member by member are equal. -/
theorem eq_of_sameList : ∀ {ds es : List Expr}, sameList ds es = true → ds = es
  | [], es, h => by cases es <;> simp_all [sameList]
  | d :: ds, es, h => by
      cases es with
      | nil => simp [sameList] at h
      | cons e es =>
          simp only [sameList, Bool.and_eq_true] at h
          rw [eq_of_same h.1, eq_of_sameList h.2]

/-- Lists of fields that agree field by field are equal. -/
theorem eq_of_sameFields : ∀ {fs gs : List (String × Expr)}, sameFields fs gs = true → fs = gs
  | [], gs, h => by cases gs <;> simp_all [sameFields]
  | (m, d) :: fs, gs, h => by
      cases gs with
      | nil => simp [sameFields] at h
      | cons g gs =>
          obtain ⟨n, e⟩ := g
          simp only [sameFields, Bool.and_eq_true, beq_iff_eq] at h
          rw [h.1.1, eq_of_same h.1.2, eq_of_sameFields h.2]

end

instance : DecidableEq Expr := fun d e =>
  if h : d.same e then isTrue (eq_of_same h)
  else isFalse fun eq => h (eq ▸ same_self d)

end Expr

deriving instance DecidableEq for Lambda

namespace Lambda

/-- The number of declared parameters. -/
def arity (f : Lambda) : Nat := f.params.length

/-- The function as an expression. -/
def toExpr (f : Lambda) : Expr := .lambda f.params f.body

end Lambda

end RowQuery
