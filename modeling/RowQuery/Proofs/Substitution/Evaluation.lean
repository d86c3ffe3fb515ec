import RowQuery.Proofs.Alike.Bisimulation
import RowQuery.Proofs.Substitution.References

/-!
# Substitution and evaluation

To substitute expressions for parameters is to evaluate where the parameters have their values.
The two evaluations do not do the same work: a substituted path is read again in each call of a
closure that took it along, and below a nested function that declares the parameter it is not there
at all.

* `Expr.EvaluatesTo`, `Bindings.EvaluateTo` — expressions that have a value, and a table of them
  beside the table of their values.
* `Env.Known` — environments whose closures are there already.
* `Bindings.EvaluateTo.readAlike` — what is substituted reads what the extended environment holds.
* `Expr.filter_bound_sublist_subst` — references that nested functions bind stay as they are.
* **`Expr.eval_subst`** — evaluation after a substitution, beside evaluation in the extended
  environment.
-/

namespace RowQuery

/-! ## Values of paths -/

/-- **Expressions with a value**: calls nested to some depth suffice, whichever closure is next. -/
def Expr.EvaluatesTo (env : Env) (e : Expr) (v : Value) : Prop :=
  ∃ depth next after, (e.eval (Lambda.apply depth) env).run next = .ok (v, after)

/-- **Environments of values that are there already** when the next closure has number `n`. -/
def Env.Known (n : Nat) (env : Env) : Prop := ∀ x ∈ env, x.2.Known n

namespace Expr

variable {e : Expr} {env : Env} {v : Value}

/-- A path evaluates to what it reads. -/
theorem evaluatesTo_iff_read (path : e.IsPath) : e.EvaluatesTo env v ↔ e.read env = .ok v := by
  simp only [EvaluatesTo, eval_of_isPath _ env path]
  cases e.read env with
  | error _ =>
      constructor
      · rintro ⟨_, _, _, h⟩
        cases h
      · rintro h
        cases h
  | ok u =>
      constructor
      · rintro ⟨_, _, _, h⟩
        cases h
        rfl
      · rintro h
        cases h
        exact ⟨0, 0, 0, rfl⟩

/-- A path reads nothing new. -/
theorem known_of_read {n : Nat} (known : env.Known n) :
    ∀ {e : Expr} {v : Value}, e.IsPath → e.read env = .ok v → v.Known n
  | .param p, v, _, h => by
      rw [read] at h
      cases found : env.lookup p.id with
      | none =>
          rw [found] at h
          cases h
      | some u =>
          rw [found] at h
          cases h
          exact known _ (mem_of_lookup found)
  | .lit l, v, _, h => by
      cases h
      intro i hi
      cases l <;> cases hi
  | .member object name _, v, path, h => by
      rw [read] at h
      cases inner : object.read env with
      | error _ =>
          rw [inner] at h
          cases h
      | ok u =>
          rw [inner] at h
          exact (known_of_read known (e := object) path inner).member h

end Expr

/-! ## Tables of paths and of values -/

/-- **Bindings beside their values**, under the same ids in the same order. -/
def Bindings.EvaluateTo (b : Bindings) (env values : Env) : Prop :=
  List.Forall₂ (fun x y => x.1 = y.1 ∧ x.2.EvaluatesTo env y.2) b values

namespace Bindings

variable {b : Bindings} {e : Expr} {env values : Env}

/-- Bindings to paths go into an expression that declares none of their parameters. -/
theorem into_of_forall (paths : ∀ x ∈ b, x.2.IsPath)
    (uncaptured : ∀ x ∈ b, ∀ q ∈ x.2.freeRefs, q.id ∉ e.declared) : b.Into e :=
  fun _ _ _ found => ⟨paths _ (mem_of_lookup found), uncaptured _ (mem_of_lookup found)⟩

/-- **What is substituted for a parameter reads what the extended environment holds** for it. -/
theorem EvaluateTo.readAlike (evaluate : b.EvaluateTo env values) (paths : ∀ x ∈ b, x.2.IsPath)
    (uncaptured : ∀ x ∈ b, ∀ q ∈ x.2.freeRefs, q.id ∉ e.declared) {m n : Nat}
    (left : env.Known m) (right : env.Known n) :
    e.ReadAlike (Pairing.known m n) b [] env (values ++ env) := by
  refine ⟨into_of_forall paths uncaptured, nil_into e, fun p _ => ?_⟩
  have found := lookup_rel evaluate p.id
  simp only [Expr.subst, List.lookup_nil, Option.getD_none, Expr.read, List.lookup_append]
  cases bound : b.lookup p.id with
  | none =>
      rw [bound] at found
      generalize values.lookup p.id = value at found ⊢
      cases found
      rw [Option.getD_none, Option.none_or, Expr.read]
      cases there : env.lookup p.id with
      | none => rfl
      | some v => exact .known (left _ (mem_of_lookup there)) (right _ (mem_of_lookup there))
  | some x =>
      rw [bound] at found
      generalize values.lookup p.id = value at found ⊢
      cases found with
      | some evaluates =>
          have path := paths _ (mem_of_lookup bound)
          have read := (Expr.evaluatesTo_iff_read path).mp evaluates
          rw [Option.getD_some, Option.some_or, read]
          exact .known (Expr.known_of_read left path read) (Expr.known_of_read right path read)

end Bindings

/-! ## Evaluation after a substitution -/

namespace Expr

/-- **References that nested functions bind stay as they are**, whatever is substituted. -/
theorem filter_bound_sublist_subst (b : Bindings) (e : Expr) :
    (e.refs.filter fun r => r.Bound).Sublist (e.subst b).refs := by
  rw [refs_subst]
  induction e.refs with
  | nil => exact .slnil
  | cons r rest ih =>
      rw [List.flatMap_cons]
      by_cases bound : r.Bound
      · rw [List.filter_cons_of_pos (by simpa using bound), Ref.substituted_of_bound bound]
        exact ih.cons_cons r
      · rw [List.filter_cons_of_neg (by simpa using bound)]
        exact ih.trans (List.sublist_append_right _ _)

/-- **Substitution agrees with evaluation.**  The bindings are paths that no nested function
captures and that have values in `env`.  The substituted expression in `env` and the expression in
`env` with those values end alike, to whatever depth calls may nest: both with results that a
bisimulation relates, or both with the same failure.  A reference that a nested function binds stays
a reference to what that function is called with, also if its parameter has a binding. -/
theorem eval_subst (e : Expr) (b : Bindings) :
    ((∀ x ∈ b, x.2.IsPath) → (∀ x ∈ b, ∀ q ∈ x.2.freeRefs, q.id ∉ e.declared) →
      ∃ R, Value.Bisimulation R ∧ ∀ (env values : Env) (depth m n : Nat),
        b.EvaluateTo env values → env.Known m → env.Known n →
        Agree (Pairing.known m n) R ((e.subst b).eval (Lambda.apply depth) env)
          (e.eval (Lambda.apply depth) (values ++ env))) ∧
    (e.refs.filter fun r => r.Bound).Sublist (e.subst b).refs := by
  refine ⟨fun paths uncaptured => ⟨Value.Alike, Value.Alike.bisimulation, ?_⟩,
    filter_bound_sublist_subst b e⟩
  intro env values depth m n evaluate left right
  have agree := e.eval_agree (Lambda.apply_respects depth)
    (evaluate.readAlike paths uncaptured left right)
  rwa [subst_nil] at agree

/-- `(|i| i + 1)(41), i, |t| t + i`, where a function declares `i` again and a closure takes it
along. -/
def recounted : Expr :=
  let i : Param := ⟨⟨100⟩, "i", .int⟩
  let t : Param := ⟨⟨101⟩, "t", .int⟩
  .tuple [
    .invokeOf (.lambda [i] (.binaryOf (.arith .add) (.param i) (.lit (.int 1)))) [.lit (.int 41)],
    .param i,
    .lambda [t] (.binaryOf (.arith .add) (.param t) (.param i))]

/-- The count of a row is substituted for `i`; its value in this row is 7. -/
theorem eval_subst_recounted :
    let b : Bindings := [(⟨100⟩, .member (.param ⟨⟨0⟩, "row", .con "Flags"⟩) "count" .int)]
    let env : Env := [(⟨0⟩, .record "Flags" [("count", .int 7)])]
    let values : Env := [(⟨100⟩, .int 7)]
    b.EvaluateTo env values ∧ env.Known 0 ∧
      (∃ R, Value.Bisimulation R ∧ ∀ depth : Nat,
        Agree (Pairing.known 0 0) R ((recounted.subst b).eval (Lambda.apply depth) env)
          (recounted.eval (Lambda.apply depth) (values ++ env))) ∧
      (recounted.refs.filter fun r => r.Bound).Sublist (recounted.subst b).refs := by
  intro b env values
  have evaluate : b.EvaluateTo env values := .cons ⟨rfl, 0, 0, 0, rfl⟩ .nil
  have known : env.Known 0 := by simp [env, Env.Known, Value.Known, Value.closureIds]
  obtain ⟨agree, shadowed⟩ := eval_subst recounted b
  obtain ⟨R, bisimulation, agree⟩ := agree (List.forall_mem_singleton.mpr trivial) (by decide)
  exact ⟨evaluate, known, ⟨R, bisimulation, fun depth => agree _ _ depth 0 0 evaluate known known⟩,
    shadowed⟩

end Expr

end RowQuery
