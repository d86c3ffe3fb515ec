import RowQuery.Expr.Basic

/-!
# One level of an expression

* `Expr.children` — the direct subexpressions, in the order of evaluation.
* `Expr.forEachChild` — visit each child with an effect, in that order.
* `Expr.mapChildrenM` — rebuild a node with each child replaced, running an effect at each child
  in that order.
* `Expr.mapChildren` — the same without effects, with the laws of a map.

Leaves are kept as they are.  The body is the only child of a nested function; its parameters are
kept.
-/

namespace RowQuery.Expr

/-- **The direct subexpressions**, in the order of evaluation. -/
def children : Expr → List Expr
  | .param _ => []
  | .lit _ => []
  | .member object _ _ => [object]
  | .unary _ operand _ => [operand]
  | .binary _ lhs rhs _ => [lhs, rhs]
  | .call _ args _ => args
  | .ite cond thenBranch elseBranch _ => [cond, thenBranch, elseBranch]
  | .construct _ fields => fields.map (·.2)
  | .tuple items => items
  | .list _ items => items
  | .lambda _ body => [body]
  | .invoke callee args _ => callee :: args

/-- **Visiting the children.** -/
def forEachChild {m : Type → Type} [Monad m] (visit : Expr → m Unit) : Expr → m Unit
  | .param _ => return
  | .lit _ => return
  | .member object _ _ => visit object
  | .unary _ operand _ => visit operand
  | .binary _ lhs rhs _ => do visit lhs; visit rhs
  | .call _ args _ => args.forM visit
  | .ite cond thenBranch elseBranch _ => do visit cond; visit thenBranch; visit elseBranch
  | .construct _ fields => fields.forM fun (_, value) => visit value
  | .tuple items => items.forM visit
  | .list _ items => items.forM visit
  | .lambda _ body => visit body
  | .invoke callee args _ => do visit callee; args.forM visit

/-- **Rebuilding one level with effects.**  Each child is replaced by what `f` makes of it; all
else of the node is kept. -/
def mapChildrenM {m : Type → Type} [Monad m] (f : Expr → m Expr) : Expr → m Expr
  | .param p => pure (.param p)
  | .lit l => pure (.lit l)
  | .member object name ty => do return .member (← f object) name ty
  | .unary op operand ty => do return .unary op (← f operand) ty
  | .binary op lhs rhs ty => do return .binary op (← f lhs) (← f rhs) ty
  | .call func args ty => do return .call func (← args.mapM f) ty
  | .ite cond thenBranch elseBranch ty => do
      return .ite (← f cond) (← f thenBranch) (← f elseBranch) ty
  | .construct ty fields => do
      return .construct ty (← fields.mapM fun (name, value) => do return (name, ← f value))
  | .tuple items => do return .tuple (← items.mapM f)
  | .list elemTy items => do return .list elemTy (← items.mapM f)
  | .lambda params body => do return .lambda params (← f body)
  | .invoke callee args ty => do return .invoke (← f callee) (← args.mapM f) ty

/-- **Rebuilding one level.** -/
def mapChildren (f : Expr → Expr) : Expr → Expr
  | .param p => .param p
  | .lit l => .lit l
  | .member object name ty => .member (f object) name ty
  | .unary op operand ty => .unary op (f operand) ty
  | .binary op lhs rhs ty => .binary op (f lhs) (f rhs) ty
  | .call func args ty => .call func (args.map f) ty
  | .ite cond thenBranch elseBranch ty => .ite (f cond) (f thenBranch) (f elseBranch) ty
  | .construct ty fields => .construct ty (fields.map fun (name, value) => (name, f value))
  | .tuple items => .tuple (items.map f)
  | .list elemTy items => .list elemTy (items.map f)
  | .lambda params body => .lambda params (f body)
  | .invoke callee args ty => .invoke (f callee) (args.map f) ty

/-- The children of a rebuilt node are the images of its children. -/
theorem children_mapChildren (f : Expr → Expr) (e : Expr) :
    (e.mapChildren f).children = e.children.map f := by
  cases e <;> simp [mapChildren, children]

/-- What a node is rebuilt to depends on what becomes of its children. -/
theorem mapChildren_congr {f g : Expr → Expr} {e : Expr}
    (h : ∀ child ∈ e.children, f child = g child) : e.mapChildren f = e.mapChildren g := by
  cases e with
  | construct ty fields =>
      have values : ∀ x ∈ fields, (x.1, f x.2) = (x.1, g x.2) := fun x hx =>
        congrArg _ (h x.2 (List.mem_map_of_mem hx))
      exact congrArg _ (List.map_congr_left values)
  | _ => simp_all [mapChildren, children]

/-- It depends on nothing else. -/
theorem mapChildren_eq_iff {f g : Expr → Expr} {e : Expr} :
    e.mapChildren f = e.mapChildren g ↔ ∀ child ∈ e.children, f child = g child := by
  refine ⟨fun same => ?_, mapChildren_congr⟩
  have images := congrArg children same
  rwa [children_mapChildren, children_mapChildren, List.map_inj_left] at images

/-- Rebuilding twice is rebuilding once. -/
theorem mapChildren_mapChildren (f g : Expr → Expr) (e : Expr) :
    (e.mapChildren f).mapChildren g = e.mapChildren (g ∘ f) := by
  cases e <;> simp [mapChildren]

/-- Rebuilding a node from its children gives the node. -/
theorem mapChildren_id (e : Expr) : e.mapChildren id = e := by
  cases e <;> simp [mapChildren]

end RowQuery.Expr
