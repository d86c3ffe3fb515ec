import RowQuery.Proofs.Substitution.References

/-!
# Substitutions one after the other

Two substitutions one after the other are one substitution, in which the second has gone into what
the first puts in.  The nested functions shadow parameters in each of the three, and what the first
one puts in must not be captured: the second one would pass over the captured parameters.

* `Bindings.andThen` — the substitution that does the work of two.
* `Expr.subst_congr` — what becomes of an expression depends on what becomes of its free references
  alone.
* `Expr.subst_eq_self_iff` — it is left as it is exactly if they are.
* `Expr.exists_of_mem_freeRefs_subst` — where the free references of a substituted expression come
  from.
* `Expr.subst_subst` — two substitutions are one.
* **`Expr.subst_composes`** — composition, identity and idempotence together.
-/

namespace RowQuery

namespace Bindings

/-- **One substitution after another**, as one: the second goes into what the first puts in, and
replaces on its own what the first leaves alone. -/
def andThen (b c : Bindings) : Bindings := b.map (fun x => (x.1, x.2.subst c)) ++ c

theorem lookup_andThen (b c : Bindings) (id : ParamId) :
    (b.andThen c).lookup id = ((b.lookup id).map (Expr.subst c)).or (c.lookup id) := by
  rw [andThen, List.lookup_append, lookup_map]

end Bindings

namespace Expr

/-! ## What an expression depends on -/

/-- **What a substitution makes of an expression** depends on what it makes of the free references
alone. -/
theorem subst_congr {b c : Bindings} {e : Expr}
    (same : ∀ p ∈ e.freeRefs, (param p).subst b = (param p).subst c) : e.subst b = e.subst c := by
  induction e using inductCompound generalizing b c with
  | param p => exact same p (List.mem_singleton.mpr rfl)
  | lit l => rfl
  | compound e h ih =>
      rw [h.subst_eq, h.subst_eq]
      exact mapChildren_congr fun child hchild =>
        ih child hchild fun p hp => same p (h.freeRefs_subset hchild hp)
  | lambda params body ih =>
      rw [subst, subst, ih]
      intro p hp
      by_cases declared : p.id ∈ params.map (·.id)
      · rw [subst_param_without_of_mem b declared, subst_param_without_of_mem c declared]
      · rw [subst_param_without_of_not_mem b declared, subst_param_without_of_not_mem c declared]
        exact same p (mem_freeRefs_lambda.mpr ⟨hp, declared⟩)

/-- **A substitution leaves an expression as it is** exactly if it replaces no free reference by
anything else. -/
theorem subst_eq_self_iff {b : Bindings} {e : Expr} :
    e.subst b = e ↔ ∀ p ∈ e.freeRefs, ∀ x, b.lookup p.id = some x → x = param p := by
  induction e using inductCompound generalizing b with
  | param p =>
      rw [subst, freeRefs, List.forall_mem_singleton]
      cases b.lookup p.id with
      | none => simp
      | some x => simp
  | lit l => exact iff_of_true rfl (List.forall_mem_nil _)
  | compound e h ih =>
      have children : e.subst b = e ↔ ∀ child ∈ e.children, child.subst b = child := by
        rw [h.subst_eq]
        exact (Eq.congr_right (mapChildren_id e).symm).trans mapChildren_eq_iff
      rw [children, h.freeRefs_eq]
      constructor
      · intro same p hp
        obtain ⟨child, hchild, hp⟩ := List.mem_flatMap.mp hp
        exact (ih child hchild).mp (same child hchild) p hp
      · intro same child hchild
        exact (ih child hchild).mpr fun p hp =>
          same p (List.mem_flatMap.mpr ⟨child, hchild, hp⟩)
  | lambda params body ih =>
      rw [subst, lambda.injEq, eq_self, true_and, ih]
      constructor
      · intro same p hp x found
        obtain ⟨inner, free⟩ := mem_freeRefs_lambda.mp hp
        exact same p inner x ((b.lookup_without_of_not_mem free).trans found)
      · intro same p hp x found
        by_cases declared : p.id ∈ params.map (·.id)
        · rw [b.lookup_without_of_mem declared] at found
          cases found
        · rw [b.lookup_without_of_not_mem declared] at found
          exact same p (mem_freeRefs_lambda.mpr ⟨hp, declared⟩) x found

/-- So it leaves an expression without bound references as it is. -/
theorem subst_eq_self {b : Bindings} {e : Expr} (unbound : ∀ p ∈ e.freeRefs, b.lookup p.id = none) :
    e.subst b = e := by
  refine subst_eq_self_iff.mpr fun p hp x found => ?_
  rw [unbound p hp] at found
  cases found

/-- **Where free references come from**: each stands in what is substituted for a free reference. -/
theorem exists_of_mem_freeRefs_subst {b : Bindings} {e : Expr} {p : Param}
    (h : p ∈ (e.subst b).freeRefs) : ∃ q ∈ e.freeRefs, p ∈ ((param q).subst b).freeRefs := by
  induction e using inductCompound generalizing b with
  | param q => exact ⟨q, List.mem_singleton.mpr rfl, h⟩
  | lit l => cases h
  | compound e he ih =>
      rw [he.subst_eq, (he.mapChildren _).freeRefs_eq, children_mapChildren, List.flatMap_map] at h
      obtain ⟨child, hchild, hp⟩ := List.mem_flatMap.mp h
      obtain ⟨q, hq, from_q⟩ := ih child hchild hp
      exact ⟨q, he.freeRefs_subset hchild hq, from_q⟩
  | lambda params body ih =>
      rw [subst] at h
      obtain ⟨inner, free⟩ := mem_freeRefs_lambda.mp h
      obtain ⟨q, hq, from_q⟩ := ih inner
      by_cases declared : q.id ∈ params.map (·.id)
      · -- nothing is substituted for `q`, and `p` is not declared
        rw [subst_param_without_of_mem b declared] at from_q
        obtain rfl := List.mem_singleton.mp from_q
        exact absurd declared free
      · rw [subst_param_without_of_not_mem b declared] at from_q
        exact ⟨q, mem_freeRefs_lambda.mpr ⟨hq, declared⟩, from_q⟩

end Expr

/-! ## Two substitutions -/

/-- **Below a nested function** that captures nothing of the first substitution, the two compose as
they do outside of it. -/
theorem Bindings.andThen_without {b : Bindings} (c : Bindings) {params : List Param}
    (uncaptured : ∀ x ∈ b, ∀ q ∈ x.2.freeRefs, q.id ∉ params.map (·.id)) :
    (b.without params).andThen (c.without params) = (b.andThen c).without params := by
  simp only [andThen, without, List.filter_append, List.filter_map]
  refine congrArg (· ++ _) (List.map_congr_left fun x hx => congrArg _ ?_)
  have kept : x ∈ b := (List.mem_filter.mp hx).1
  exact Expr.subst_congr fun q hq => Expr.subst_param_without_of_not_mem c (uncaptured x kept q hq)

namespace Expr

/-- **Two substitutions are one**, if no nested function captures what the first one puts in.  By
induction on the expression for all bindings at once, as nested functions shadow some. -/
theorem subst_subst {b c : Bindings} {e : Expr}
    (uncaptured : ∀ x ∈ b, ∀ q ∈ x.2.freeRefs, q.id ∉ e.declared) :
    (e.subst b).subst c = e.subst (b.andThen c) := by
  induction e using inductCompound generalizing b c with
  | param p =>
      rw [subst, subst, Bindings.lookup_andThen]
      cases b.lookup p.id with
      | none => rw [Option.getD_none, subst, Option.map_none, Option.none_or]
      | some x => rfl
  | lit l => rfl
  | compound e h ih =>
      rw [h.subst_eq, (h.mapChildren _).subst_eq, h.subst_eq, mapChildren_mapChildren]
      exact mapChildren_congr fun child hchild => ih child hchild fun x hx q hq captured =>
        uncaptured x hx q hq (h.declared_subset hchild captured)
  | lambda params body ih =>
      have above : ∀ x ∈ b, ∀ q ∈ x.2.freeRefs, q.id ∉ params.map (·.id) :=
        fun x hx q hq captured => uncaptured x hx q hq (List.mem_append_left _ captured)
      have below : ∀ x ∈ b.without params, ∀ q ∈ x.2.freeRefs, q.id ∉ body.declared :=
        fun x hx q hq captured =>
          uncaptured x (List.mem_filter.mp hx).1 q hq (List.mem_append_right _ captured)
      rw [subst, subst, subst, ih below, Bindings.andThen_without c above]

/-- **Substitutions compose.**  Two of them one after the other are one, which replaces what the
first one binds by what the second one makes of it, and all else as the second one does.  No nested
function may capture what the first one puts in.  A substitution of parameters that an expression
does not refer to freely leaves it as it is, and one that leaves it as it is replaces no free
reference by anything else.  So a substitution that puts in none of the parameters that it binds
does nothing when it is repeated, captured or not. -/
theorem subst_composes (e : Expr) (b c : Bindings) :
    ((∀ x ∈ b, ∀ q ∈ x.2.freeRefs, q.id ∉ e.declared) →
      (∀ id, (b.andThen c).lookup id = ((b.lookup id).map (subst c)).or (c.lookup id)) ∧
      (e.subst b).subst c = e.subst (b.andThen c)) ∧
    ((∀ p ∈ e.freeRefs, b.lookup p.id = none) → e.subst b = e) ∧
    (e.subst b = e → ∀ p ∈ e.freeRefs, ∀ x, b.lookup p.id = some x → x = param p) ∧
    ((∀ x ∈ b, ∀ q ∈ x.2.freeRefs, b.lookup q.id = none) → (e.subst b).subst b = e.subst b) := by
  refine ⟨fun uncaptured => ⟨b.lookup_andThen c, subst_subst uncaptured⟩, subst_eq_self,
    subst_eq_self_iff.mp, fun outside => ?_⟩
  refine subst_eq_self fun p hp => ?_
  obtain ⟨q, -, from_q⟩ := exists_of_mem_freeRefs_subst hp
  rw [subst] at from_q
  cases bound : b.lookup q.id with
  | none =>
      rw [bound] at from_q
      obtain rfl := List.mem_singleton.mp from_q
      exact bound
  | some x =>
      rw [bound] at from_q
      exact outside _ (mem_of_lookup bound) p from_q

/-- `x, y, |x, z| x + y + z`, where `x` has the id 100, `y` 101 and `z` 102. -/
def sumBelow (x y : Expr) : Expr :=
  let p : Param := ⟨⟨100⟩, "x", .int⟩
  let q : Param := ⟨⟨102⟩, "z", .int⟩
  .tuple [x, y,
    .lambda [p, q] (.binaryOf (.arith .add) (.binaryOf (.arith .add) (.param p) y) (.param q))]

/-- A member of a row is substituted for `x`, and then the left row of a pair for the row and 2 for
`y`; the function shadows `x` in the first substitution and `z` in the second. -/
theorem subst_composes_sumBelow :
    let e := sumBelow (.param ⟨⟨100⟩, "x", .int⟩) (.param ⟨⟨101⟩, "y", .int⟩)
    let row : Expr := .param ⟨⟨0⟩, "row", .con "Row"⟩
    let left : Expr := .member (.param ⟨⟨1⟩, "pair", .con "Pair"⟩) "left" (.con "Row")
    let b : Bindings := [(⟨100⟩, .member row "a" .int)]
    let c : Bindings := [(⟨0⟩, left), (⟨101⟩, .lit (.int 2)), (⟨102⟩, .lit (.int 1))]
    (e.subst b).subst c = e.subst (b.andThen c) ∧
      e.subst (b.andThen c) = sumBelow (.member left "a" .int) (.lit (.int 2)) ∧
      e.subst [(⟨102⟩, .lit (.int 1))] = e ∧ e.subst b ≠ e ∧
      (e.subst b).subst b = e.subst b := by
  intro e row left b c
  have nested := subst_composes e b c
  have unbound := (subst_composes e [(⟨102⟩, .lit (.int 1))] []).2.1
  have changed : e.subst b ≠ e := fun same =>
    nomatch nested.2.2.1 same ⟨⟨100⟩, "x", .int⟩ List.mem_cons_self _ rfl
  exact ⟨(nested.1 (by decide)).2, rfl, unbound (by decide), changed, nested.2.2.2 (by decide)⟩

end Expr

end RowQuery
