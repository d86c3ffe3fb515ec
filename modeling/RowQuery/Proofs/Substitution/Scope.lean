import Mathlib.Data.List.Forall2
import RowQuery.Eval.Basic
import RowQuery.Expr.FreeParams
import RowQuery.Expr.Substitution
import RowQuery.Expr.Typing

/-!
# What a substitution meets

Substitution does not rename: an expression that is put below a nested function loses those of its
parameters that the function declares.  What is substituted here are paths — a parameter or a
constant, and members of it — and the ids in them must not be declared inside.

* `Expr.declared` — the ids that nested functions declare.
* `Expr.IsPath`, `Expr.read` — paths, and the value of a path: no closure is made and nothing is
  called (`eval_of_isPath`).
* `Bindings.Into` — bindings to paths that no nested function of an expression captures.
* `subst_nil` — substituting nothing changes nothing.
* `ty_subst_congr` — the type after a substitution depends on the types of what is substituted
  alone.
-/

namespace RowQuery

namespace Expr

/-! ## Declared ids -/

mutual

/-- **The ids that nested functions declare.** -/
def declared : Expr → List ParamId
  | .param _ => []
  | .lit _ => []
  | .member object _ _ => object.declared
  | .unary _ operand _ => operand.declared
  | .binary _ lhs rhs _ => lhs.declared ++ rhs.declared
  | .call _ args _ => declaredList args
  | .ite cond thenBranch elseBranch _ =>
      cond.declared ++ thenBranch.declared ++ elseBranch.declared
  | .construct _ fields => declaredFields fields
  | .tuple items => declaredList items
  | .list _ items => declaredList items
  | .lambda params body => params.map (·.id) ++ body.declared
  | .invoke callee args _ => callee.declared ++ declaredList args

/-- The ids that the members of a list declare. -/
def declaredList : List Expr → List ParamId
  | [] => []
  | e :: es => e.declared ++ declaredList es

/-- The ids that the values of fields declare. -/
def declaredFields : List (String × Expr) → List ParamId
  | [] => []
  | (_, e) :: fs => e.declared ++ declaredFields fs

end

@[simp]
theorem declaredList_eq_flatMap (es : List Expr) : declaredList es = es.flatMap declared := by
  induction es with
  | nil => rfl
  | cons e es ih => simp [declaredList, ih]

@[simp]
theorem declaredFields_eq_flatMap (fs : List (String × Expr)) :
    declaredFields fs = fs.flatMap fun f => f.2.declared := by
  induction fs with
  | nil => rfl
  | cons f fs ih => simp [declaredFields, ih]

/-- What the body of a function refers to freely is free in the function, or declared by it. -/
theorem mem_freeRefs_lambda {params : List Param} {body : Expr} {p : Param} :
    p ∈ (lambda params body).freeRefs ↔ p ∈ body.freeRefs ∧ p.id ∉ params.map (·.id) := by
  rw [freeRefs, List.mem_filter, decide_eq_true_iff]

/-! ## Paths -/

/-- **Paths**: a parameter or a constant, or a member of a path. -/
def IsPath : Expr → Prop
  | .param _ => True
  | .lit _ => True
  | .member object _ _ => object.IsPath
  | _ => False

/-- **The value of a path.** -/
def read (env : Env) : Expr → Except EvalError Value
  | .param p =>
      match env.lookup p.id with
      | some v => .ok v
      | none => .error (.unboundParam p.name)
  | .lit l => .ok (.ofLiteral l)
  | .member object name _ => do (← object.read env).member name
  | _ => .ok .null

/-- A path evaluates to its value, whatever calls mean. -/
theorem eval_of_isPath (apply : Apply) (env : Env) :
    ∀ {e : Expr}, e.IsPath → e.eval apply env = EvalM.lift (e.read env)
  | .param p, _ => by
      rw [eval, read]
      cases env.lookup p.id <;> rfl
  | .lit l, _ => by rw [eval, read]; rfl
  | .member object name _, h => by
      rw [eval, read, eval_of_isPath apply env (e := object) h]
      cases object.read env <;> rfl

end Expr

/-! ## Look-ups -/

/-- What is found is there. -/
theorem mem_of_lookup {κ α : Type} [BEq κ] [LawfulBEq κ] {xs : List (κ × α)} {key : κ} {a : α}
    (h : xs.lookup key = some a) : (key, a) ∈ xs := by
  obtain ⟨l₁, l₂, rfl, -⟩ := List.lookup_eq_some_iff.mp h
  exact List.mem_append_right _ List.mem_cons_self

/-- What is there under a key of its own is found. -/
theorem lookup_of_mem {κ α : Type} [BEq κ] [LawfulBEq κ] {xs : List (κ × α)}
    (distinct : (xs.map Prod.fst).Nodup) {x : κ × α} (h : x ∈ xs) : xs.lookup x.1 = some x.2 := by
  obtain ⟨before, after, rfl⟩ := List.append_of_mem h
  refine List.lookup_eq_some_iff.mpr ⟨before, after, rfl, fun y hy => ?_⟩
  rw [List.map_append, List.map_cons, List.nodup_append] at distinct
  simp only [bne_iff_ne, ne_eq]
  exact fun same => distinct.2.2 y.1 (List.mem_map_of_mem hy) x.1 List.mem_cons_self same.symm

/-- **The order of a table** does not matter if no key stands in it twice. -/
theorem lookup_perm {κ α : Type} [BEq κ] [LawfulBEq κ] {xs ys : List (κ × α)} (perm : xs.Perm ys)
    (distinct : (xs.map Prod.fst).Nodup) (key : κ) : xs.lookup key = ys.lookup key := by
  have distinct' : (ys.map Prod.fst).Nodup := (perm.map Prod.fst).nodup_iff.mp distinct
  cases found : ys.lookup key with
  | some a => exact lookup_of_mem distinct (perm.mem_iff.mpr (mem_of_lookup found))
  | none =>
      rw [List.lookup_eq_none_iff] at found ⊢
      exact fun x hx => found x (perm.mem_iff.mp hx)

/-- A table under other keys has the same entries. -/
theorem lookup_map_injective {κ α β : Type} [BEq κ] [LawfulBEq κ] {f : κ → κ}
    (hf : Function.Injective f) (g : α → β) (xs : List (κ × α)) (key : κ) :
    (xs.map fun x => (f x.1, g x.2)).lookup (f key) = (xs.lookup key).map g := by
  induction xs with
  | nil => rfl
  | cons x xs ih =>
      obtain ⟨k, a⟩ := x
      by_cases hk : key = k
      · subst hk
        simp
      · have hne : f key ≠ f k := fun same => hk (hf same)
        simp [List.lookup_cons, beq_eq_false_iff_ne.mpr hk, beq_eq_false_iff_ne.mpr hne, ih]

/-- A table with other entries under the same keys. -/
theorem lookup_map {κ α β : Type} [BEq κ] [LawfulBEq κ] (g : α → β) (xs : List (κ × α)) (key : κ) :
    (xs.map fun x => (x.1, g x.2)).lookup key = (xs.lookup key).map g :=
  lookup_map_injective Function.injective_id g xs key

/-- Two tables with the same keys and related values give related values. -/
theorem lookup_rel {κ α β : Type} [BEq κ] {R : α → β → Prop} {xs : List (κ × α)}
    {ys : List (κ × β)} (h : List.Forall₂ (fun x y => x.1 = y.1 ∧ R x.2 y.2) xs ys) (key : κ) :
    Option.Rel R (xs.lookup key) (ys.lookup key) := by
  induction h with
  | nil => exact .none
  | @cons x y xs ys hxy _ ih =>
      obtain ⟨k, a⟩ := x
      obtain ⟨k', b⟩ := y
      obtain ⟨rfl, hab⟩ := hxy
      simp only [List.lookup_cons]
      split
      · exact .some hab
      · exact ih

/-- What is there is found. -/
theorem exists_lookup {κ α : Type} [BEq κ] [LawfulBEq κ] {xs : List (κ × α)} {key : κ}
    (h : key ∈ xs.map Prod.fst) : ∃ a, xs.lookup key = some a := by
  rw [← Option.isSome_iff_exists, List.lookup_isSome_iff]
  obtain ⟨x, hx, rfl⟩ := List.mem_map.mp h
  exact ⟨x, hx, beq_self_eq_true _⟩

/-- A key of one of them has related values in both. -/
theorem exists_lookup_rel {κ α β : Type} [BEq κ] [LawfulBEq κ] {R : α → β → Prop}
    {xs : List (κ × α)} {ys : List (κ × β)}
    (h : List.Forall₂ (fun x y => x.1 = y.1 ∧ R x.2 y.2) xs ys) {key : κ}
    (hkey : key ∈ xs.map Prod.fst) :
    ∃ a b, xs.lookup key = some a ∧ ys.lookup key = some b ∧ R a b := by
  have related := lookup_rel h key
  obtain ⟨a, found⟩ := exists_lookup hkey
  rw [found] at related ⊢
  generalize ys.lookup key = right at related ⊢
  cases related with
  | some hab => exact ⟨_, _, rfl, rfl, hab⟩

/-- A parameter that a function does not declare is read where the function was made. -/
theorem Env.lookup_bind_of_not_mem (env : Env) {params : List Param} (args : List Value)
    {id : ParamId} (h : id ∉ params.map (·.id)) :
    (env.bind params args).lookup id = env.lookup id := by
  unfold Env.bind
  rw [List.lookup_append, List.lookup_eq_none_iff.mpr, Option.none_or]
  intro x hx
  simp only [bne_iff_ne, ne_eq]
  rintro rfl
  exact h (List.of_mem_zip (List.mem_reverse.mp hx)).1

/-- Related lists are related entry by entry under the same keys. -/
theorem zip_rel {κ α β : Type} {R : α → β → Prop} {as : List α} {bs : List β}
    (h : List.Forall₂ R as bs) (keys : List κ) :
    List.Forall₂ (fun x y => x.1 = y.1 ∧ R x.2 y.2) (keys.zip as) (keys.zip bs) := by
  induction h generalizing keys with
  | nil => simp
  | cons hab _ ih =>
      cases keys with
      | nil => exact .nil
      | cons key keys => exact .cons ⟨rfl, hab⟩ (ih keys)

/-- A parameter that a function declares reads related arguments from related lists of them. -/
theorem Env.lookup_bind_of_mem {R : Value → Value → Prop} {args args' : List Value}
    (hargs : List.Forall₂ R args args') (env env' : Env) {params : List Param}
    (hlen : params.length = args.length) {id : ParamId} (h : id ∈ params.map (·.id)) :
    ∃ u v, (env.bind params args).lookup id = some u ∧
      (env'.bind params args').lookup id = some v ∧ R u v := by
  have hkeys : ((params.map (·.id)).zip args).map Prod.fst = params.map (·.id) :=
    List.map_fst_zip (by simp [hlen])
  have hmem : id ∈ ((params.map (·.id)).zip args).reverse.map Prod.fst := by
    rw [List.map_reverse, List.mem_reverse, hkeys]
    exact h
  obtain ⟨u, v, hu, hv, huv⟩ :=
    exists_lookup_rel (List.rel_reverse (zip_rel hargs (params.map (·.id)))) hmem
  refine ⟨u, v, ?_, ?_, huv⟩ <;> rw [Env.bind, List.lookup_append]
  · rw [hu, Option.some_or]
  · rw [hv, Option.some_or]

namespace Bindings

theorem lookup_without_of_not_mem (b : Bindings) {params : List Param} {id : ParamId}
    (h : id ∉ params.map (·.id)) : (b.without params).lookup id = b.lookup id := by
  induction b with
  | nil => rfl
  | cons x b ih =>
      obtain ⟨k, e⟩ := x
      unfold without at ih ⊢
      by_cases hk : k ∈ params.map (·.id)
      · have hne : id ≠ k := fun eq => h (eq ▸ hk)
        rw [List.filter_cons_of_neg (by simpa using hk), ih, List.lookup_cons,
          beq_eq_false_iff_ne.mpr hne]
      · rw [List.filter_cons_of_pos (by simpa using hk), List.lookup_cons, List.lookup_cons, ih]

theorem lookup_without_of_mem (b : Bindings) {params : List Param} {id : ParamId}
    (h : id ∈ params.map (·.id)) : (b.without params).lookup id = none := by
  rw [List.lookup_eq_none_iff]
  intro x hx
  simp only [bne_iff_ne, ne_eq]
  rintro rfl
  exact of_decide_eq_true (List.mem_filter.mp hx).2 h

/-- **Bindings to paths that an expression does not capture.**  Only what the expression refers to
freely counts. -/
def Into (b : Bindings) (e : Expr) : Prop :=
  ∀ p ∈ e.freeRefs, ∀ x, b.lookup p.id = some x → x.IsPath ∧ ∀ q ∈ x.freeRefs, q.id ∉ e.declared

theorem nil_into (e : Expr) : Into [] e := by
  intro p _ x hx
  cases hx

/-- Bindings go into every part of what they go into. -/
theorem Into.part {b : Bindings} {e part : Expr} (h : b.Into e)
    (hfree : part.freeRefs ⊆ e.freeRefs) (hdecl : part.declared ⊆ e.declared) : b.Into part := by
  intro p hp x hx
  obtain ⟨path, avoid⟩ := h p (hfree hp) x hx
  exact ⟨path, fun q hq hd => avoid q hq (hdecl hd)⟩

/-- Below a nested function, what it does not shadow goes into its body. -/
theorem Into.body {b : Bindings} {params : List Param} {body : Expr}
    (h : b.Into (.lambda params body)) : (b.without params).Into body := by
  intro p hp x hx
  by_cases hmem : p.id ∈ params.map (·.id)
  · rw [lookup_without_of_mem b hmem] at hx
    cases hx
  · rw [lookup_without_of_not_mem b hmem] at hx
    obtain ⟨path, avoid⟩ := h p (Expr.mem_freeRefs_lambda.mpr ⟨hp, hmem⟩) x hx
    refine ⟨path, fun q hq hd => avoid q hq ?_⟩
    simp only [Expr.declared, List.mem_append]
    exact .inr hd

end Bindings

namespace Expr

/-- Nothing is substituted for a parameter that a nested function declares. -/
theorem subst_param_without_of_mem (b : Bindings) {params : List Param} {p : Param}
    (h : p.id ∈ params.map (·.id)) : (Expr.param p).subst (b.without params) = .param p := by
  rw [subst, b.lookup_without_of_mem h, Option.getD_none]

/-- For all others the same is substituted as outside of the function. -/
theorem subst_param_without_of_not_mem (b : Bindings) {params : List Param} {p : Param}
    (h : p.id ∉ params.map (·.id)) :
    (Expr.param p).subst (b.without params) = (Expr.param p).subst b := by
  rw [subst, subst, b.lookup_without_of_not_mem h]

/-- What is substituted for a parameter is a path. -/
theorem isPath_subst_param {b : Bindings} {e : Expr} (h : b.Into e) {p : Param}
    (hp : p ∈ e.freeRefs) : ((Expr.param p).subst b).IsPath := by
  rw [subst]
  cases hx : b.lookup p.id with
  | none => trivial
  | some x => exact (h p hp x hx).1

/-- A path reads the same below a function that declares none of its parameters. -/
theorem read_bind (env : Env) {params : List Param} (args : List Value) :
    ∀ {e : Expr}, e.IsPath → (∀ q ∈ e.freeRefs, q.id ∉ params.map (·.id)) →
      e.read (env.bind params args) = e.read env
  | .param p, _, h => by
      rw [read, read, env.lookup_bind_of_not_mem args (h p (by simp [freeRefs]))]
  | .lit _, _, _ => rfl
  | .member object name _, hpath, h => by
      rw [read, read, read_bind env args (e := object) hpath (by simpa [freeRefs] using h)]

/-! ## Substituting nothing -/

/-- **Substituting nothing changes nothing.** -/
@[simp]
theorem subst_nil (e : Expr) : e.subst [] = e := by
  induction e with
  | param p => simp [subst]
  | lit l => rfl
  | member object name ty ih => rw [subst, ih]
  | unary op operand ty ih => rw [subst, ih]
  | binary op lhs rhs ty ihl ihr => rw [subst, ihl, ihr]
  | call func args ty ih => simp [subst, List.map_congr_left ih]
  | ite cond thenBranch elseBranch ty ihc iht ihe => rw [subst, ihc, iht, ihe]
  | construct ty fields ih =>
      rw [subst, substFields_eq_map]
      congr 1
      conv_rhs => rw [← List.map_id fields]
      exact List.map_congr_left fun f hf => by rw [ih f hf]; rfl
  | tuple items ih => simp [subst, List.map_congr_left ih]
  | list elemTy items ih => simp [subst, List.map_congr_left ih]
  | lambda params body ih =>
      rw [subst]
      exact congrArg _ ih
  | invoke callee args ty ihc ih => simp [subst, ihc, List.map_congr_left ih]

/-! ## Types -/

/-- **The type after a substitution** depends on the types of what is substituted alone. -/
theorem ty_subst_congr {b c : Bindings} {e : Expr}
    (h : ∀ p ∈ e.freeRefs, ((Expr.param p).subst b).ty = ((Expr.param p).subst c).ty) :
    (e.subst b).ty = (e.subst c).ty := by
  induction e generalizing b c with
  | param p => exact h p (by simp [freeRefs])
  | tuple items ih =>
      simp only [subst, ty, substList_eq_map, tys_eq_map, List.map_map]
      refine congrArg _ (List.map_congr_left fun e he => ih e he fun p hp => h p ?_)
      simp only [freeRefs, freeRefsList_eq_flatMap, List.mem_flatMap]
      exact ⟨e, he, hp⟩
  | lambda params body ih =>
      simp only [subst, ty]
      refine congrArg _ (ih fun p hp => ?_)
      by_cases hmem : p.id ∈ params.map (·.id)
      · rw [subst_param_without_of_mem b hmem, subst_param_without_of_mem c hmem]
      · rw [subst_param_without_of_not_mem b hmem, subst_param_without_of_not_mem c hmem]
        exact h p (mem_freeRefs_lambda.mpr ⟨hp, hmem⟩)
  | _ => simp [subst, ty]

end Expr

end RowQuery
