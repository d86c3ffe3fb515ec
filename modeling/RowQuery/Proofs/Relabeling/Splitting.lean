import RowQuery.Proofs.Relabeling.Evaluation
import RowQuery.Proofs.Split.Hygiene

/-!
# Splitting under other ids and names

Substitution, free parameters and the checks of a function compare ids, each in its own way; none
of them looks at a name, except to report it.  With other ids and names they find the same
parameters at the same places, and splitting follows the same plan.

* `Expr.freeParams_relabel`, `Expr.relabel_subst` — free parameters and substitution.
* `SplitError.relabel` — failures that report another name.
* **`Lambda.checkParams_relabel`**, `Splitter.planOf_relabel` — the checks fail alike, and the plan
  is the same.
* **`CarrierMap.relabel_splitLambda`** — splitting and relabeling can be exchanged.
* `Lambda.ids_relabel`, `Lambda.relabel_congr` — the ids of a relabeled function; only those that
  occur matter.
-/

namespace RowQuery

/-! ## Lists under other keys -/

section

variable {α β γ δ : Type} [BEq γ] [BEq δ] {key : α → γ} {key' : β → δ} {f : α → β}

/-- The first members of each key, under keys that compare alike. -/
theorem distinctBy_map (alike : ∀ x y, (key' (f x) == key' (f y)) = (key x == key y))
    (xs : List α) : distinctBy key' (xs.map f) = (distinctBy key xs).map f := by
  induction xs with
  | nil => rfl
  | cons x xs ih =>
    simp only [List.map_cons, distinctBy, ih, List.filter_map, List.cons.injEq, true_and]
    refine congrArg _ (List.filter_congr fun y _ => ?_)
    simp [alike]

/-- The first repetition, under keys that compare alike. -/
theorem firstRepeatAfter?_map {g : γ → δ} (keys : ∀ x, key' (f x) = g (key x))
    (alike : ∀ a b, (g a == g b) = (a == b)) (seen : List γ) (xs : List α) :
    firstRepeatAfter? key' (seen.map g) (xs.map f) = (firstRepeatAfter? key seen xs).map f := by
  induction xs generalizing seen with
  | nil => rfl
  | cons x xs ih =>
    have found : (seen.map g).contains (key' (f x)) = seen.contains (key x) := by
      simp [List.contains_eq_any_beq, List.any_map, keys, alike, Function.comp_def]
    simp only [List.map_cons, firstRepeatAfter?, found]
    split
    · rfl
    · rw [keys, ← List.map_cons]
      exact ih (key x :: seen)

end

variable {r : Relabeling}

/-- Other ids compare as the ids do. -/
theorem Relabeling.beq_newId (a b : ParamId) : (r.newId a == r.newId b) = (a == b) := by
  rw [Bool.eq_iff_iff, beq_iff_eq, beq_iff_eq, r.injective.eq_iff]

/-! ## Expressions -/

namespace Expr

theorem Compound.relabel_eq {e : Expr} (h : e.Compound) :
    e.relabel r = e.mapChildren (relabel r) := by
  cases e <;> simp_all [Compound, relabel, Expr.mapChildren]

/-- The free references are the relabeled ones. -/
theorem freeRefs_relabel (e : Expr) :
    (e.relabel r).freeRefs = e.freeRefs.map (Param.relabel r) := by
  induction e using inductCompound with
  | param p => rfl
  | lit l => rfl
  | compound e h ih =>
    rw [h.relabel_eq, (h.mapChildren _).freeRefs_eq, children_mapChildren, List.flatMap_map,
      h.freeRefs_eq, List.map_flatMap]
    exact List.flatMap_congr ih
  | lambda params body ih =>
    rw [relabel, freeRefs, freeRefs, ih, List.filter_map]
    refine congrArg _ (List.filter_congr fun p _ => ?_)
    simp only [Function.comp_apply, Param.id_relabel, Param.id_mem_relabel]

/-- **The free parameters** are the relabeled ones, in the same order. -/
theorem freeParams_relabel (e : Expr) :
    (e.relabel r).freeParams = e.freeParams.map (Param.relabel r) := by
  rw [freeParams, freeParams, freeRefs_relabel]
  exact distinctBy_map (fun p q => Relabeling.beq_newId p.id q.id) e.freeRefs

end Expr

/-- Bindings with other ids and names. -/
def Bindings.relabel (r : Relabeling) (b : Bindings) : Bindings :=
  b.map fun x => (r.newId x.1, x.2.relabel r)

theorem Bindings.lookup_relabel (b : Bindings) (id : ParamId) :
    (b.relabel r).lookup (r.newId id) = (b.lookup id).map (Expr.relabel r) :=
  lookup_map_injective r.injective (Expr.relabel r) b id

theorem Bindings.relabel_without (b : Bindings) (params : List Param) :
    (b.without params).relabel r = (b.relabel r).without (params.map (Param.relabel r)) := by
  rw [without, without, relabel, relabel, List.filter_map]
  refine congrArg _ (List.filter_congr fun x _ => ?_)
  simp only [Function.comp_apply, Param.id_mem_relabel]

/-- **Substitution and relabeling can be exchanged.**  By induction on the expression, for all
bindings at once: a nested function shadows some of them. -/
theorem Expr.relabel_subst (b : Bindings) (e : Expr) :
    (e.subst b).relabel r = (e.relabel r).subst (b.relabel r) := by
  induction e using inductCompound generalizing b with
  | param p =>
    simp only [relabel, subst, Param.id_relabel, Bindings.lookup_relabel]
    cases b.lookup p.id <;> rfl
  | lit l => rfl
  | compound e h ih =>
    rw [h.subst_eq, (h.mapChildren _).relabel_eq, h.relabel_eq, (h.mapChildren _).subst_eq,
      mapChildren_mapChildren, mapChildren_mapChildren]
    exact mapChildren_congr fun child hchild => ih child hchild b
  | lambda params body ih =>
    rw [subst, relabel, relabel, subst, ih, Bindings.relabel_without]

/-! ## Checks and plans -/

/-- A failure that reports the other name of a parameter. -/
def SplitError.relabel (r : Relabeling) : SplitError → SplitError
  | .duplicateParameter name => .duplicateParameter (r.newName name)
  | .undeclaredParameter name => .undeclaredParameter (r.newName name)
  | e => e

/-- Failures reported otherwise, of computations one after the other. -/
theorem mapError_bind {ε ε' α β : Type} (g : ε → ε') (x : Except ε α) (f : α → Except ε β) :
    (x >>= f).mapError g = x.mapError g >>= fun a => (f a).mapError g := by
  cases x <;> rfl

/-- **The check of a function fails alike**, on the same parameter. -/
theorem Lambda.checkParams_relabel (f : Lambda) :
    (f.relabel r).checkParams = f.checkParams.mapError (SplitError.relabel r) := by
  have repeated : firstRepeat? Param.id (f.relabel r).params =
      (firstRepeat? Param.id f.params).map (Param.relabel r) :=
    firstRepeatAfter?_map (f := Param.relabel r) (g := r.newId) (fun _ => rfl)
      Relabeling.beq_newId [] f.params
  have undeclared : ((f.relabel r).body.freeParams.find? fun p =>
        p.id ∉ (f.relabel r).params.map (·.id)) =
      (f.body.freeParams.find? fun p => p.id ∉ f.params.map (·.id)).map (Param.relabel r) := by
    rw [relabel, Expr.freeParams_relabel, List.find?_map]
    refine congrArg _ (congrArg (List.find? · _) ?_)
    funext p
    simp only [Function.comp_apply, Param.id_relabel, Param.id_mem_relabel]
  have empty : (f.relabel r).params.isEmpty = f.params.isEmpty := by simp [relabel]
  unfold checkParams
  rw [empty, repeated, undeclared]
  split
  · rfl
  · cases firstRepeat? Param.id f.params with
    | some p => rfl
    | none => cases f.body.freeParams.find? fun p => p.id ∉ f.params.map (·.id) <;> rfl

/-- A choice of members reports no parameter. -/
theorem MemberSlot.mapError_chooseAll {mode : MatchMode} {carrier : Ty} {members : List MemberSlot}
    (earlier : List Ty) (claimed : List Nat) (expected : List Ty) :
    (chooseAll mode carrier members earlier claimed expected).mapError (SplitError.relabel r) =
      chooseAll mode carrier members earlier claimed expected := by
  induction expected generalizing earlier claimed with
  | nil => rfl
  | cons t ts ih =>
    have first : (choose mode carrier members earlier claimed t).mapError (SplitError.relabel r) =
        choose mode carrier members earlier claimed t := by
      simp only [choose]
      split
      · rfl
      · split <;> rfl
    simp only [chooseAll, mapError_bind, first, ih]
    rfl

namespace Splitter

variable {s : Splitter}

/-- A plan for a carrier reports no parameter. -/
theorem mapError_computePlan (carrier : Ty) (expected : List Ty) :
    (s.computePlan carrier expected).mapError (SplitError.relabel r) =
      s.computePlan carrier expected := by
  have members : ((s.schema.members carrier).mapError SplitError.schema).mapError
      (SplitError.relabel r) = (s.schema.members carrier).mapError SplitError.schema := by
    cases s.schema.members carrier <;> rfl
  simp only [computePlan, MemberPlan.ofMembers, mapError_bind, members,
    MemberSlot.mapError_chooseAll]
  rfl

/-- **The plan is the same**, and a function without one fails alike. -/
theorem planOf_relabel (f : Lambda) (carrier : Ty) :
    s.planOf (f.relabel r) carrier = (s.planOf f carrier).mapError (SplitError.relabel r) := by
  rw [planOf, planOf, mapError_bind, mapError_computePlan, Lambda.checkParams_relabel,
    Lambda.paramTys_relabel]

end Splitter

/-! ## Split functions -/

namespace CarrierMap

/-- The accesses are the relabeled ones. -/
theorem relabel_bindings (carrier : Param) (params : List Param) (plan : MemberPlan) :
    (ofPlan carrier params plan).bindings.relabel r =
      (ofPlan (carrier.relabel r) (params.map (Param.relabel r)) plan).bindings := by
  simp only [bindings, ofPlan, Bindings.relabel, List.map_map, List.zip_map_left]
  rfl

/-- **Splitting and relabeling can be exchanged.** -/
theorem relabel_splitLambda (carrier : Param) (plan : MemberPlan) (f : Lambda) :
    ((ofPlan carrier f.params plan).splitLambda f).relabel r =
      (ofPlan (carrier.relabel r) (f.relabel r).params plan).splitLambda (f.relabel r) := by
  simp only [splitLambda, Lambda.relabel, Expr.relabel_subst, relabel_bindings]
  rfl

end CarrierMap

/-! ## The ids that occur -/

namespace Expr

/-- Declared ids are the other ids. -/
theorem declared_relabel (e : Expr) : (e.relabel r).declared = e.declared.map r.newId := by
  induction e using inductCompound with
  | param p => rfl
  | lit l => rfl
  | compound e h ih =>
    rw [h.relabel_eq, (h.mapChildren _).declared_eq, children_mapChildren, List.flatMap_map,
      h.declared_eq, List.map_flatMap]
    exact List.flatMap_congr ih
  | lambda params body ih =>
    rw [relabel, declared, declared, ih, Param.map_id_relabel, List.map_append]

/-- The ids of references are the other ids. -/
theorem refs_relabel (e : Expr) :
    (e.relabel r).refs.map (·.param.id) = (e.refs.map (·.param.id)).map r.newId := by
  induction e using inductCompound with
  | param p => rfl
  | lit l => rfl
  | compound e h ih =>
    rw [h.relabel_eq, (h.mapChildren _).refs_eq, children_mapChildren, List.flatMap_map,
      h.refs_eq, List.map_flatMap, List.map_flatMap, List.map_flatMap]
    exact List.flatMap_congr ih
  | lambda params body ih =>
    simp only [relabel, refs, List.map_map] at ih ⊢
    exact ih

/-- A subexpression has no ids that the expression does not have. -/
theorem Compound.ids_subset {e child : Expr} (h : e.Compound) (mem : child ∈ e.children) :
    child.ids ⊆ e.ids := by
  rw [ids, ids, h.refs_eq]
  refine List.append_subset.mpr ⟨fun id hid => ?_, fun id hid => ?_⟩
  · exact List.mem_append_left _ (h.declared_subset mem hid)
  · rw [List.map_flatMap]
    exact List.mem_append_right _ (List.mem_flatMap.mpr ⟨child, mem, hid⟩)

/-- The ids of a nested function are those of its parameters and those of its body. -/
theorem ids_lambda (params : List Param) (body : Expr) :
    (lambda params body).ids = params.map (·.id) ++ body.ids := by
  simp only [ids, declared, refs, List.map_map, List.append_assoc]
  rfl

end Expr

/-- Parameters under relabelings that agree on their ids. -/
theorem Param.map_relabel_congr {r' : Relabeling} (names : r.newName = r'.newName)
    {params : List Param} (agree : ∀ id ∈ params.map (·.id), r.newId id = r'.newId id) :
    params.map (relabel r) = params.map (relabel r') := by
  refine List.map_congr_left fun p hp => ?_
  rw [relabel, relabel, names, agree p.id (List.mem_map_of_mem hp)]

/-- **Only the ids that occur matter** to an expression. -/
theorem Expr.relabel_congr {r' : Relabeling} (names : r.newName = r'.newName) {e : Expr}
    (agree : ∀ id ∈ e.ids, r.newId id = r'.newId id) : e.relabel r = e.relabel r' := by
  induction e using inductCompound with
  | param p =>
    have same : p.relabel r = p.relabel r' := by
      rw [Param.relabel, Param.relabel, names, agree p.id (List.mem_singleton.mpr rfl)]
    rw [relabel, relabel, same]
  | lit l => rfl
  | compound e h ih =>
    rw [h.relabel_eq, h.relabel_eq]
    exact mapChildren_congr fun child hchild =>
      ih child hchild fun id hid => agree id (h.ids_subset hchild hid)
  | lambda params body ih =>
    rw [ids_lambda] at agree
    rw [relabel, relabel, ih fun id hid => agree id (List.mem_append_right _ hid),
      Param.map_relabel_congr names fun id hid => agree id (List.mem_append_left _ hid)]

namespace Lambda

/-- **Only the ids that occur matter** to a function. -/
theorem relabel_congr {r' : Relabeling} (names : r.newName = r'.newName) {f : Lambda}
    (agree : ∀ id ∈ f.ids, r.newId id = r'.newId id) : f.relabel r = f.relabel r' := by
  rw [relabel, relabel,
    Expr.relabel_congr names fun id hid => agree id (List.mem_append_right _ hid),
    Param.map_relabel_congr names fun id hid => agree id (List.mem_append_left _ hid)]

/-- All ids of a relabeled function are the other ids. -/
theorem ids_relabel (f : Lambda) : (f.relabel r).ids = f.ids.map r.newId := by
  simp only [ids, Expr.ids, relabel, Expr.declared_relabel, Expr.refs_relabel, List.map_append,
    Param.map_id_relabel]

end Lambda

end RowQuery
