import RowQuery.Distinct
import RowQuery.Expr.Basic

/-!
# Free parameters

* `Expr.freeRefs` — every reference that no nested function binds, in the order in which they
  stand.
* `Expr.freeParams` — the parameters an expression refers to freely, once each, in the order of
  their first reference; `Expr.exists_mem_freeParams`.
-/

namespace RowQuery

namespace Expr

mutual

/-- **Free references**, in order and with repetitions.  A nested function binds the ids that it
declares. -/
def freeRefs : Expr → List Param
  | .param p => [p]
  | .lit _ => []
  | .member object _ _ => object.freeRefs
  | .unary _ operand _ => operand.freeRefs
  | .binary _ lhs rhs _ => lhs.freeRefs ++ rhs.freeRefs
  | .call _ args _ => freeRefsList args
  | .ite cond thenBranch elseBranch _ =>
      cond.freeRefs ++ thenBranch.freeRefs ++ elseBranch.freeRefs
  | .construct _ fields => freeRefsFields fields
  | .tuple items => freeRefsList items
  | .list _ items => freeRefsList items
  | .lambda params body => body.freeRefs.filter fun p => p.id ∉ params.map (·.id)
  | .invoke callee args _ => callee.freeRefs ++ freeRefsList args

/-- The free references of a list of expressions. -/
def freeRefsList : List Expr → List Param
  | [] => []
  | e :: es => e.freeRefs ++ freeRefsList es

/-- The free references of the values of fields. -/
def freeRefsFields : List (String × Expr) → List Param
  | [] => []
  | (_, e) :: fs => e.freeRefs ++ freeRefsFields fs

end

@[simp]
theorem freeRefsList_eq_flatMap (es : List Expr) : freeRefsList es = es.flatMap freeRefs := by
  induction es with
  | nil => rfl
  | cons e es ih => simp [freeRefsList, ih]

@[simp]
theorem freeRefsFields_eq_flatMap (fs : List (String × Expr)) :
    freeRefsFields fs = fs.flatMap fun f => f.2.freeRefs := by
  induction fs with
  | nil => rfl
  | cons f fs ih => simp [freeRefsFields, ih]

/-- **Free parameters**, once each, in the order of their first reference. -/
def freeParams (e : Expr) : List Param := distinctBy (·.id) e.freeRefs

/-- Every free reference is to a free parameter. -/
theorem exists_mem_freeParams {e : Expr} {p : Param} (h : p ∈ e.freeRefs) :
    ∃ q ∈ e.freeParams, q.id = p.id := exists_mem_distinctBy h

end Expr

end RowQuery
