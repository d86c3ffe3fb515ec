import RowQuery.Expr.Basic

/-!
# Substitution of parameters

* `Bindings` — expressions bound to parameter ids; the first binding of an id counts.
* `Bindings.without` — the bindings outside of a list of declared parameters.
* `Expr.subst` — replace every free reference to a bound id by its expression.  A nested function
  shadows the ids that it declares.  All else is kept, stored types included.
-/

namespace RowQuery

/-- **Bindings** of parameter ids to expressions. -/
abbrev Bindings := List (ParamId × Expr)

/-- The bindings that `params` does not shadow. -/
def Bindings.without (bindings : Bindings) (params : List Param) : Bindings :=
  bindings.filter fun (id, _) => id ∉ params.map (·.id)

namespace Expr

mutual

/-- **Substitution.** -/
def subst (bindings : Bindings) : Expr → Expr
  | .param p => (bindings.lookup p.id).getD (.param p)
  | .lit l => .lit l
  | .member object name ty => .member (object.subst bindings) name ty
  | .unary op operand ty => .unary op (operand.subst bindings) ty
  | .binary op lhs rhs ty => .binary op (lhs.subst bindings) (rhs.subst bindings) ty
  | .call func args ty => .call func (substList bindings args) ty
  | .ite cond thenBranch elseBranch ty =>
      .ite (cond.subst bindings) (thenBranch.subst bindings) (elseBranch.subst bindings) ty
  | .construct ty fields => .construct ty (substFields bindings fields)
  | .tuple items => .tuple (substList bindings items)
  | .list elemTy items => .list elemTy (substList bindings items)
  | .lambda params body => .lambda params (body.subst (bindings.without params))
  | .invoke callee args ty => .invoke (callee.subst bindings) (substList bindings args) ty

/-- `Expr.subst` on each member of a list. -/
def substList (bindings : Bindings) : List Expr → List Expr
  | [] => []
  | e :: es => e.subst bindings :: substList bindings es

/-- `Expr.subst` on the value of each field. -/
def substFields (bindings : Bindings) : List (String × Expr) → List (String × Expr)
  | [] => []
  | (name, e) :: fs => (name, e.subst bindings) :: substFields bindings fs

end

@[simp]
theorem substList_eq_map (bindings : Bindings) (es : List Expr) :
    substList bindings es = es.map (subst bindings) := by
  induction es with
  | nil => rfl
  | cons e es ih => simp [substList, ih]

@[simp]
theorem substFields_eq_map (bindings : Bindings) (fs : List (String × Expr)) :
    substFields bindings fs = fs.map fun f => (f.1, f.2.subst bindings) := by
  induction fs with
  | nil => rfl
  | cons f fs ih => simp [substFields, ih]

end Expr

end RowQuery
