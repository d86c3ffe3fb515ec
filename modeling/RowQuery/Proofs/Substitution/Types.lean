import RowQuery.Proofs.Split.Equivalence
import RowQuery.Proofs.Substitution.References

/-!
# Types after a substitution

A substitution copies the types that nodes store; tuples, lists and nested functions have the types
that their new children give them.  The two agree if everything that is put in has the type of the
reference that it replaces.

* `Expr.nodes` — an expression and all expressions inside it.
* `Expr.retyped` — a node with the type that is computed from its children.
* `Expr.Annotated` — all nodes store the types that are computed from their children.
* `Expr.ty_subst` — the type of an expression after a substitution.
* `Expr.Annotated.subst` — no node needs another type after a substitution.
* `CarrierMap.reference_ofPlan` — what splitting substitutes for a reference has its type.
* **`Expr.subst_preserves_types`** — both, for substitutions and for split functions.
-/

namespace RowQuery

namespace Expr

/-! ## Nodes -/

mutual

/-- **The nodes of an expression**: the expression and all expressions inside it. -/
def nodes : Expr → List Expr
  | .param p => [.param p]
  | .lit l => [.lit l]
  | .member object name ty => .member object name ty :: object.nodes
  | .unary op operand ty => .unary op operand ty :: operand.nodes
  | .binary op lhs rhs ty => .binary op lhs rhs ty :: (lhs.nodes ++ rhs.nodes)
  | .call func args ty => .call func args ty :: nodesList args
  | .ite cond thenBranch elseBranch ty =>
      .ite cond thenBranch elseBranch ty ::
        (cond.nodes ++ thenBranch.nodes ++ elseBranch.nodes)
  | .construct ty fields => .construct ty fields :: nodesFields fields
  | .tuple items => .tuple items :: nodesList items
  | .list elemTy items => .list elemTy items :: nodesList items
  | .lambda params body => .lambda params body :: body.nodes
  | .invoke callee args ty => .invoke callee args ty :: (callee.nodes ++ nodesList args)

/-- The nodes of a list of expressions. -/
def nodesList : List Expr → List Expr
  | [] => []
  | e :: es => e.nodes ++ nodesList es

/-- The nodes of the values of fields. -/
def nodesFields : List (String × Expr) → List Expr
  | [] => []
  | (_, e) :: fs => e.nodes ++ nodesFields fs

end

@[simp]
theorem nodesList_eq_flatMap (es : List Expr) : nodesList es = es.flatMap nodes := by
  induction es with
  | nil => rfl
  | cons e es ih => simp [nodesList, ih]

@[simp]
theorem nodesFields_eq_flatMap (fs : List (String × Expr)) :
    nodesFields fs = fs.flatMap fun f => f.2.nodes := by
  induction fs with
  | nil => rfl
  | cons f fs ih => simp [nodesFields, ih]

theorem nodes_eq (e : Expr) : e.nodes = e :: e.children.flatMap nodes := by
  cases e <;> simp [nodes, children, List.flatMap_map]

/-! ## Annotations -/

/-- **A node with the type that is computed from its children**, if it is one that stores such a
type. -/
def retyped : Expr → Expr
  | .unary op operand _ => .unaryOf op operand
  | .binary op lhs rhs _ => .binaryOf op lhs rhs
  | .call func args _ => .callOf func args
  | .ite cond thenBranch elseBranch _ => .iteOf cond thenBranch elseBranch
  | .invoke callee args _ => .invokeOf callee args
  | e => e

/-- **Consistent annotations**: all nodes store the types that are computed from their children. -/
def Annotated (e : Expr) : Prop := ∀ d ∈ e.nodes, d.retyped = d

instance (e : Expr) : Decidable e.Annotated := inferInstanceAs (Decidable (∀ _ ∈ _, _))

/-- The annotations of an expression are those of its root and those of its children. -/
theorem annotated_iff {e : Expr} :
    e.Annotated ↔ e.retyped = e ∧ ∀ child ∈ e.children, child.Annotated := by
  unfold Annotated
  rw [nodes_eq, List.forall_mem_cons]
  simp only [List.mem_flatMap]
  exact and_congr_right fun _ =>
    ⟨fun h child hchild d hd => h d ⟨child, hchild, hd⟩,
      fun h d ⟨child, hchild, hd⟩ => h child hchild d hd⟩

theorem annotated_param (p : Param) : (param p).Annotated :=
  annotated_iff.mpr ⟨rfl, List.forall_mem_nil _⟩

theorem annotated_member {object : Expr} (h : object.Annotated) (name : String) (ty : Ty) :
    (member object name ty).Annotated :=
  annotated_iff.mpr ⟨rfl, List.forall_mem_singleton.mpr h⟩

/-- **A node keeps the type that is computed for it** if its children keep theirs. -/
theorem retyped_mapChildren {f : Expr → Expr} {e : Expr}
    (h : ∀ child ∈ e.children, (f child).ty = child.ty) :
    (e.mapChildren f).retyped = e.retyped.mapChildren f := by
  cases e <;>
    simp_all [mapChildren, children, retyped, unaryOf, binaryOf, callOf, iteOf, invokeOf]

/-! ## Substitution -/

/-- **What is substituted for a reference** has a property if the reference and everything that is
bound have it. -/
theorem subst_param_of_lookup {motive : Expr → Prop} {b : Bindings} {p : Param}
    (kept : motive (param p)) (bound : ∀ x, b.lookup p.id = some x → motive x) :
    motive ((param p).subst b) := by
  rw [subst]
  cases found : b.lookup p.id with
  | none => exact kept
  | some x => exact bound x found

variable {b : Bindings} {e : Expr}

/-- **The type of an expression** stays as it is if the types of its free references do. -/
theorem ty_subst (types : ∀ p ∈ e.freeRefs, ((param p).subst b).ty = p.ty) :
    (e.subst b).ty = e.ty := by
  calc (e.subst b).ty = (e.subst []).ty := ty_subst_congr fun p hp => by
        rw [types p hp, subst_nil, ty]
    _ = e.ty := by rw [subst_nil]

/-- **No node needs another type** after a substitution that keeps the types of the free
references. -/
theorem Annotated.subst (annotated : e.Annotated)
    (values : ∀ p ∈ e.freeRefs, ((param p).subst b).Annotated)
    (types : ∀ p ∈ e.freeRefs, ((param p).subst b).ty = p.ty) : (e.subst b).Annotated := by
  induction e using inductCompound generalizing b with
  | param p => exact values p (List.mem_singleton.mpr rfl)
  | lit l => exact annotated
  | compound e h ih =>
      obtain ⟨root, children⟩ := annotated_iff.mp annotated
      have childTypes : ∀ child ∈ e.children, (child.subst b).ty = child.ty := fun child hchild =>
        ty_subst fun p hp => types p (h.freeRefs_subset hchild hp)
      rw [h.subst_eq, annotated_iff, retyped_mapChildren childTypes, root, children_mapChildren]
      refine ⟨rfl, List.forall_mem_map.mpr fun child hchild => ?_⟩
      have inside := h.freeRefs_subset hchild
      exact ih child hchild (children child hchild) (fun p hp => values p (inside hp))
        fun p hp => types p (inside hp)
  | lambda params body ih =>
      have reference : ∀ p ∈ body.freeRefs, ((param p).subst (b.without params)).Annotated ∧
          ((param p).subst (b.without params)).ty = p.ty := by
        intro p hp
        by_cases declared : p.id ∈ params.map (·.id)
        · rw [subst_param_without_of_mem b declared]
          exact ⟨annotated_param p, rfl⟩
        · rw [subst_param_without_of_not_mem b declared]
          have free := mem_freeRefs_lambda.mpr ⟨hp, declared⟩
          exact ⟨values p free, types p free⟩
      have inner : body.Annotated := (annotated_iff.mp annotated).2 body List.mem_cons_self
      rw [Expr.subst, annotated_iff]
      exact ⟨rfl, List.forall_mem_singleton.mpr
        (ih inner (fun p hp => (reference p hp).1) fun p hp => (reference p hp).2)⟩

end Expr

/-! ## Split functions -/

/-- **A declared type** is that of a declared parameter. -/
theorem CarrierMap.exists_param_of_declaredTy {params : List Param} {id : ParamId} {ty : Ty}
    (h : declaredTy params id = some ty) : ∃ q ∈ params, q.id = id ∧ q.ty = ty := by
  obtain ⟨q, hq, eq⟩ := List.mem_map.mp (mem_of_lookup h)
  cases eq
  exact ⟨q, hq, rfl, rfl⟩

/-- **What stands for a reference** to a parameter is annotated and has the type of the reference,
if that is the declared one. -/
theorem CarrierMap.reference_ofPlan (carrier : Param) {f : Lambda} {plan : MemberPlan}
    (check : f.checkParams = .ok ()) (hlen : plan.slots.length = f.params.length)
    (declared : ∀ p ∈ f.body.freeRefs, ∀ q ∈ f.params, q.id = p.id → p.ty = q.ty)
    {p : Param} (hp : p ∈ f.body.freeRefs) :
    ((Expr.param p).subst (ofPlan carrier f.params plan).bindings).Annotated ∧
      ((Expr.param p).subst (ofPlan carrier f.params plan).bindings).ty = p.ty := by
  obtain ⟨name, ty, hty, access⟩ := exists_subst_param check hlen hp
  obtain ⟨q, hq, same, rfl⟩ := exists_param_of_declaredTy hty
  rw [access carrier]
  exact ⟨Expr.annotated_member (Expr.annotated_param carrier) _ _, (declared p hp q hq same).symm⟩

namespace Expr

/-- **Substitution preserves types.**  If an expression and all that is bound store the types that
are computed from their children, and if everything that is bound has the types of the free
references that it replaces, then the expression has the same type after the substitution, and again
all nodes store the computed types.  If the references to the parameters of a function carry the
declared types, then splitting keeps the type of its result, whatever the types of the members are,
and the computed types are stored in the split function if they are in the function. -/
theorem subst_preserves_types :
    (∀ (e : Expr) (b : Bindings), e.Annotated → (∀ id x, b.lookup id = some x → x.Annotated) →
      (∀ p ∈ e.freeRefs, ∀ x, b.lookup p.id = some x → x.ty = p.ty) →
      (e.subst b).Annotated ∧ (e.subst b).ty = e.ty) ∧
    ∀ (s : Splitter) (f g : Lambda) (carrier : Ty) (state after : SplitState), s.Reached state →
      (s.split f carrier).run.run state = (.ok g, after) →
      (∀ p ∈ f.body.freeRefs, ∀ q ∈ f.params, q.id = p.id → p.ty = q.ty) →
      g.retTy = f.retTy ∧ (f.body.Annotated → g.body.Annotated) := by
  constructor
  · intro e b annotated values types
    have kept : ∀ p ∈ e.freeRefs, ((param p).subst b).ty = p.ty := fun p hp =>
      subst_param_of_lookup (motive := fun x => x.ty = p.ty) rfl (types p hp)
    have bound : ∀ p ∈ e.freeRefs, ((param p).subst b).Annotated := fun p _ =>
      subst_param_of_lookup (annotated_param p) (values p.id)
    exact ⟨annotated.subst bound kept, ty_subst kept⟩
  · intro s f g carrier state after reached split declared
    obtain ⟨check, plan, -, hlen, rfl⟩ := Splitter.split_eq_ok reached.remembers split
    have reference {p : Param} (hp : p ∈ f.body.freeRefs) :=
      CarrierMap.reference_ofPlan (s.nextCarrier state carrier) check hlen declared hp
    have types : ∀ p ∈ f.body.freeRefs, _ := fun p hp => (reference hp).2
    exact ⟨ty_subst types, fun annotated =>
      annotated.subst (fun p hp => (reference hp).1) types⟩

/-- `|x, y| (x ?? y, |y| y + x, if y > 0 then null else x)`, where `x` is optional and the inner `y`
a text. -/
def defaulted : Lambda :=
  let x : Param := ⟨⟨100⟩, "x", .option .int⟩
  let y : Param := ⟨⟨101⟩, "y", .int⟩
  let inner : Param := ⟨⟨101⟩, "y", .string⟩
  ⟨[x, y], .tuple [.binaryOf .coalesce (.param x) (.param y),
    .lambda [inner] (.binaryOf (.arith .add) (.param inner) (.param x)),
    .iteOf (.binaryOf (.order .gt) (.param y) (.lit (.int 0))) (.lit .null) (.param x)]⟩

/-- The members of a point are not optional; the split function still has the result that the
parameters give it.  It is the same with other expressions of the two types. -/
theorem subst_preserves_types_defaulted :
    let ty : Ty := .tuple [.int, .fn [.string] .string, .option .int]
    let z : Expr := .param ⟨⟨7⟩, "z", .option .int⟩
    let b : Bindings := [(⟨100⟩, .iteOf (.lit (.bool true)) (.lit .null) z),
      (⟨101⟩, .unaryOf .neg (.lit (.int 1)))]
    ((defaulted.body.subst b).Annotated ∧ (defaulted.body.subst b).ty = ty) ∧
      ∃ g after, (Splitter.points.split defaulted (.con "Point")).run.run {} = (.ok g, after) ∧
        g.retTy = ty ∧ g.body.Annotated := by
  intro ty z b
  have values : ∀ x ∈ b, x.2.Annotated := by decide
  have types : ∀ p ∈ defaulted.body.freeRefs, ∀ x ∈ b.lookup p.id, x.ty = p.ty := by decide
  have split := subst_preserves_types.2 Splitter.points defaulted _ (.con "Point") {} _ (.start {})
    rfl (by decide)
  refine ⟨subst_preserves_types.1 defaulted.body b (by decide)
    (fun id x found => values (id, x) (mem_of_lookup found)) types, _, _, rfl, split.1, ?_⟩
  exact split.2 (by decide)

end Expr

end RowQuery
