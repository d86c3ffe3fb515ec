import RowQuery.Expr.Children
import RowQuery.Proofs.Substitution.Scope

/-!
# References and what binds them

A reference to a parameter is bound by a nested function around it if that declares its id;
otherwise it is free.  Substitution replaces free references alone and moves none of them, so what
is substituted for a parameter meets the nested functions that the reference met.

* `Ref`, `Expr.refs` — the references of an expression, with the ids declared around each.
* `Expr.freeRefs_eq`, `Expr.above_subset_declared` — free references and declared ids, read off the
  references.
* `Expr.ids`, `Lambda.ids` — all ids that are declared or referred to.
* **`Expr.refs_subst`** — the references after a substitution; `Expr.refs_subst_of_single`, the same
  for expressions with one reference each.
* `Ref.Reads`, `Ref.reads_bind_iff` — a reference reads the argument of the function in whose body
  it stands, unless a nested function captures it.
-/

namespace RowQuery

/-- **A reference in an expression**, with the ids that the nested functions around it declare. -/
structure Ref where
  param : Param
  above : List ParamId
  deriving DecidableEq, Repr

namespace Ref

/-- Whether a nested function binds the reference. -/
def Bound (r : Ref) : Prop := r.param.id ∈ r.above

instance (r : Ref) : Decidable r.Bound := inferInstanceAs (Decidable (_ ∈ _))

/-- The reference below one more function. -/
def below (params : List Param) (r : Ref) : Ref := { r with above := r.above ++ params.map (·.id) }

/-- Below a function, a reference is bound if it was or if the function declares its id. -/
theorem bound_below_iff {params : List Param} {r : Ref} :
    (r.below params).Bound ↔ r.Bound ∨ r.param.id ∈ params.map (·.id) := List.mem_append

/-- **What becomes of a reference** in a substitution: a free one with a binding turns into one to
`q`. -/
def redirect (b : Bindings) (q : Param) (r : Ref) : Ref :=
  if r.Bound ∨ b.lookup r.param.id = none then r else { r with param := q }

end Ref

namespace Expr

mutual

/-- **The references of an expression**, in the order in which they stand. -/
def refs : Expr → List Ref
  | .param p => [⟨p, []⟩]
  | .lit _ => []
  | .member object _ _ => object.refs
  | .unary _ operand _ => operand.refs
  | .binary _ lhs rhs _ => lhs.refs ++ rhs.refs
  | .call _ args _ => refsList args
  | .ite cond thenBranch elseBranch _ => cond.refs ++ thenBranch.refs ++ elseBranch.refs
  | .construct _ fields => refsFields fields
  | .tuple items => refsList items
  | .list _ items => refsList items
  | .lambda params body => body.refs.map (Ref.below params)
  | .invoke callee args _ => callee.refs ++ refsList args

/-- The references of a list of expressions. -/
def refsList : List Expr → List Ref
  | [] => []
  | e :: es => e.refs ++ refsList es

/-- The references of the values of fields. -/
def refsFields : List (String × Expr) → List Ref
  | [] => []
  | (_, e) :: fs => e.refs ++ refsFields fs

end

@[simp]
theorem refsList_eq_flatMap (es : List Expr) : refsList es = es.flatMap refs := by
  induction es with
  | nil => rfl
  | cons e es ih => simp [refsList, ih]

@[simp]
theorem refsFields_eq_flatMap (fs : List (String × Expr)) :
    refsFields fs = fs.flatMap fun f => f.2.refs := by
  induction fs with
  | nil => rfl
  | cons f fs ih => simp [refsFields, ih]

/-- **All ids** that an expression declares or refers to. -/
def ids (e : Expr) : List ParamId := e.declared ++ e.refs.map (·.param.id)

/-! ## Expressions that bind nothing -/

/-- Expressions that are put together of others and bind nothing. -/
def Compound : Expr → Prop
  | .param _ => False
  | .lit _ => False
  | .lambda _ _ => False
  | _ => True

/-- **Induction on expressions** where all that are put together of others are treated alike. -/
theorem inductCompound {motive : Expr → Prop} (param : ∀ p, motive (.param p))
    (lit : ∀ l, motive (.lit l))
    (compound : ∀ e, e.Compound → (∀ child ∈ e.children, motive child) → motive e)
    (lambda : ∀ params body, motive body → motive (.lambda params body)) : ∀ e, motive e := by
  intro e
  induction e with
  | param p => exact param p
  | lit l => exact lit l
  | lambda params body ih => exact lambda params body ih
  | construct ty fields ih =>
      refine compound _ trivial fun child hchild => ?_
      obtain ⟨field, hfield, rfl⟩ := List.mem_map.mp hchild
      exact ih field hfield
  | _ => exact compound _ trivial (by simp_all [children])

section

variable {e : Expr}

theorem Compound.refs_eq (h : e.Compound) : e.refs = e.children.flatMap refs := by
  cases e <;> simp_all [Compound, refs, children, List.flatMap_map]

theorem Compound.freeRefs_eq (h : e.Compound) : e.freeRefs = e.children.flatMap freeRefs := by
  cases e <;> simp_all [Compound, freeRefs, children, List.flatMap_map]

theorem Compound.declared_eq (h : e.Compound) : e.declared = e.children.flatMap declared := by
  cases e <;> simp_all [Compound, declared, children, List.flatMap_map]

/-- What a child refers to freely, the expression does. -/
theorem Compound.freeRefs_subset (h : e.Compound) {child : Expr} (mem : child ∈ e.children) :
    child.freeRefs ⊆ e.freeRefs := by
  rw [h.freeRefs_eq]
  exact fun p hp => List.mem_flatMap.mpr ⟨child, mem, hp⟩

/-- What a child declares, the expression does. -/
theorem Compound.declared_subset (h : e.Compound) {child : Expr} (mem : child ∈ e.children) :
    child.declared ⊆ e.declared := by
  rw [h.declared_eq]
  exact fun id hid => List.mem_flatMap.mpr ⟨child, mem, hid⟩

/-- Substitution goes on in the children. -/
theorem Compound.subst_eq (h : e.Compound) (b : Bindings) :
    e.subst b = e.mapChildren (subst b) := by
  cases e <;> simp_all [Compound, subst, mapChildren]

theorem Compound.mapChildren (h : e.Compound) (f : Expr → Expr) : (e.mapChildren f).Compound := by
  cases e <;> simp_all [Compound, Expr.mapChildren]

end

/-! ## References and scopes -/

/-- **Free references** are those that no nested function binds. -/
theorem freeRefs_eq (e : Expr) :
    e.freeRefs = (e.refs.filter fun r => ¬ r.Bound).map (·.param) := by
  induction e using inductCompound with
  | param p => simp [freeRefs, refs, Ref.Bound]
  | lit l => rfl
  | compound e h ih =>
      rw [h.freeRefs_eq, h.refs_eq, List.filter_flatMap, List.map_flatMap]
      exact List.flatMap_congr ih
  | lambda params body ih =>
      rw [freeRefs, refs, ih, List.filter_map, List.filter_map, List.map_map, List.filter_filter]
      refine congrArg₂ _ rfl (List.filter_congr fun r _ => ?_)
      simp only [Function.comp_apply, Ref.bound_below_iff, not_or, Bool.decide_and, Bool.and_comm]

/-- The functions around a reference declare their ids in the expression. -/
theorem above_subset_declared {e : Expr} {r : Ref} (h : r ∈ e.refs) : r.above ⊆ e.declared := by
  induction e using inductCompound generalizing r with
  | param p =>
      obtain rfl := List.mem_singleton.mp h
      exact List.nil_subset _
  | lit l => cases h
  | compound e he ih =>
      rw [he.refs_eq] at h
      obtain ⟨child, hchild, hr⟩ := List.mem_flatMap.mp h
      exact List.Subset.trans (ih child hchild hr) (he.declared_subset hchild)
  | lambda params body ih =>
      obtain ⟨inner, hinner, rfl⟩ := List.mem_map.mp h
      intro id hid
      rcases List.mem_append.mp hid with hid | hid
      · exact List.mem_append_right _ (ih hinner hid)
      · exact List.mem_append_left _ hid

end Expr

/-! ## References after a substitution -/

namespace Ref

/-- **What a substitution makes of a reference.**  A free reference with a binding turns into the
references of the expression that is bound, below the same nested functions. -/
def substituted (b : Bindings) (r : Ref) : List Ref :=
  if r.Bound then [r]
  else
    match b.lookup r.param.id with
    | some x => x.refs.map fun q => { q with above := q.above ++ r.above }
    | none => [r]

theorem substituted_of_bound {b : Bindings} {r : Ref} (h : r.Bound) : r.substituted b = [r] :=
  if_pos h

/-- A function shadows what it declares. -/
theorem below_substituted (b : Bindings) (params : List Param) (r : Ref) :
    (r.substituted (b.without params)).map (below params) = (r.below params).substituted b := by
  by_cases bound : r.Bound
  · rw [substituted_of_bound bound, substituted_of_bound (bound_below_iff.mpr (.inl bound))]
    rfl
  · by_cases declared : r.param.id ∈ params.map (·.id)
    · rw [substituted_of_bound (bound_below_iff.mpr (.inr declared)), substituted, if_neg bound,
        b.lookup_without_of_mem declared]
      rfl
    · have free : ¬ (r.below params).Bound := by
        rw [bound_below_iff]
        exact not_or.mpr ⟨bound, declared⟩
      have param : (r.below params).param = r.param := rfl
      rw [substituted, substituted, if_neg bound, if_neg free, param,
        b.lookup_without_of_not_mem declared]
      cases b.lookup r.param.id with
      | none => rfl
      | some x => simp [below, List.append_assoc]

end Ref

namespace Expr

/-- **Substitution replaces free references** and leaves all others as they are. -/
theorem refs_subst (b : Bindings) (e : Expr) :
    (e.subst b).refs = e.refs.flatMap (Ref.substituted b) := by
  induction e using inductCompound generalizing b with
  | param p =>
      rw [subst, refs, List.flatMap_singleton, Ref.substituted]
      cases b.lookup p.id <;> simp [refs, Ref.Bound]
  | lit l => rfl
  | compound e h ih =>
      rw [h.subst_eq, (h.mapChildren _).refs_eq, children_mapChildren, List.flatMap_map, h.refs_eq,
        List.flatMap_assoc]
      exact List.flatMap_congr fun child hchild => ih child hchild b
  | lambda params body ih =>
      rw [subst, refs, refs, ih, List.map_flatMap, List.flatMap_map]
      exact List.flatMap_congr fun r _ => Ref.below_substituted b params r

/-- **Substitution redirects free references**, if each expression that it puts in consists of one
reference to `q`. -/
theorem refs_subst_of_single {b : Bindings} {q : Param}
    (single : ∀ id x, b.lookup id = some x → x.refs = [⟨q, []⟩]) (e : Expr) :
    (e.subst b).refs = e.refs.map (Ref.redirect b q) := by
  have one (r : Ref) : r.substituted b = [r.redirect b q] := by
    rw [Ref.substituted, Ref.redirect]
    cases found : b.lookup r.param.id with
    | none => simp
    | some x =>
        by_cases bound : r.Bound
        · simp [bound]
        · simp [bound, single _ _ found]
  rw [refs_subst, ← List.flatMap_pure_eq_map]
  exact List.flatMap_congr fun r _ => one r

end Expr

/-! ## What references read -/

/-- **What a reference reads**, in a function that is called in `env`: whatever the nested functions
around it bind when they are called, its value is `v`. -/
def Ref.Reads (r : Ref) (env : Env) (v : Value) : Prop :=
  ∀ inner : Env, inner.map Prod.fst ⊆ r.above → (inner ++ env).lookup r.param.id = some v

/-- **A reference reads the argument** exactly if no nested function around it declares its id. -/
theorem Ref.reads_bind_iff {p : Param} {above : List ParamId} :
    (∀ row, Ref.Reads ⟨p, above⟩ (Env.bind [] [p] [row]) row) ↔ p.id ∉ above := by
  constructor
  · intro reads captured
    have read := reads .null [(p.id, .unit)] (by simpa using captured)
    simp at read
  · intro free row inner keys
    have absent : inner.lookup p.id = none := by
      rw [List.lookup_eq_none_iff]
      intro x hx
      simp only [bne_iff_ne, ne_eq]
      rintro eq
      exact free (keys (List.mem_map.mpr ⟨x, hx, eq.symm⟩))
    rw [List.lookup_append, absent]
    simp [Env.bind]

end RowQuery
