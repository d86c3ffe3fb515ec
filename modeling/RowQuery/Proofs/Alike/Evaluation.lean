import RowQuery.Proofs.Alike.Operators

/-!
# Evaluations that agree

An expression whose free parameters are replaced by paths has one value with either replacement,
as long as the paths read alike.  The two evaluations make their closures at the same places, so
the closures stay paired.

* `Expr.ReadAlike.part`, `Expr.ReadAlike.body` — what holds of an expression holds of its parts,
  and of the body of a nested function once its arguments are bound.
* `Apply.Respects` — a meaning of calls that makes alike results of alike functions and arguments.
* **`Expr.eval_agree`** — evaluations agree if calls do.
* **`Lambda.apply_respects`** — calls agree, to whatever depth they may nest.
* `Value.Alike.call` — alike values behave alike when they are called.
-/

namespace RowQuery

/-! ## Parts -/

namespace Expr.ReadAlike

variable {w v : Pairing} {e : Expr} {b c : Bindings} {env env' : Env}

theorem mono (h : e.ReadAlike w b c env env') (hwv : w ≤ v) : e.ReadAlike v b c env env' :=
  ⟨h.left, h.right, fun p hp => (h.reads p hp).imp fun _ _ => (Value.Alike.persistent hwv ·)⟩

theorem part {part : Expr} (h : e.ReadAlike w b c env env') (hfree : part.freeRefs ⊆ e.freeRefs)
    (hdecl : part.declared ⊆ e.declared) : part.ReadAlike w b c env env' :=
  ⟨h.left.part hfree hdecl, h.right.part hfree hdecl, fun p hp => h.reads p (hfree hp)⟩

/-- What holds of an expression holds of the members of a list in it. -/
theorem item {es : List Expr} {item : Expr} (h : e.ReadAlike w b c env env')
    (hfree : freeRefsList es ⊆ e.freeRefs) (hdecl : declaredList es ⊆ e.declared)
    (hitem : item ∈ es) : item.ReadAlike w b c env env' := by
  rw [freeRefsList_eq_flatMap] at hfree
  rw [declaredList_eq_flatMap] at hdecl
  refine h.part ?_ ?_
  · exact fun p hp => hfree (List.mem_flatMap.mpr ⟨item, hitem, hp⟩)
  · exact fun i hi => hdecl (List.mem_flatMap.mpr ⟨item, hitem, hi⟩)

/-- A free parameter of a function reads the same below it. -/
private theorem read_below {params : List Param} {body : Expr}
    (h : b.Into (.lambda params body)) {p : Param} (hp : p ∈ body.freeRefs)
    (hmem : p.id ∉ params.map (·.id)) (args : List Value) :
    ((Expr.param p).subst (b.without params)).read (env.bind params args) =
      ((Expr.param p).subst b).read env := by
  have hfree : p ∈ (Expr.lambda params body).freeRefs := mem_freeRefs_lambda.mpr ⟨hp, hmem⟩
  rw [subst_param_without_of_not_mem b hmem]
  refine read_bind env args (isPath_subst_param h hfree) ?_
  rw [subst]
  cases hx : b.lookup p.id with
  | none => simpa [freeRefs] using hmem
  | some x =>
      intro q hq hid
      refine (h p hfree x hx).2 q hq ?_
      simp only [declared, List.mem_append]
      exact .inl hid

/-- **The body of a function** reads alike once alike arguments are bound. -/
theorem body {params : List Param} {body : Expr} {args args' : List Value}
    (h : (Expr.lambda params body).ReadAlike w b c env env')
    (hargs : List.Forall₂ (Value.Alike w) args args') (hlen : params.length = args.length) :
    body.ReadAlike w (b.without params) (c.without params) (env.bind params args)
      (env'.bind params args') := by
  refine ⟨h.left.body, h.right.body, fun p hp => ?_⟩
  by_cases hmem : p.id ∈ params.map (·.id)
  · obtain ⟨x, y, hx, hy, hxy⟩ := Env.lookup_bind_of_mem hargs env env' hlen hmem
    rw [subst_param_without_of_mem b hmem, subst_param_without_of_mem c hmem]
    simp only [read, hx, hy]
    exact hxy
  · rw [read_below h.left hp hmem, read_below h.right hp hmem]
    exact h.reads p (mem_freeRefs_lambda.mpr ⟨hp, hmem⟩)

end Expr.ReadAlike

/-! ## Calls of values -/

/-- **A meaning of calls that respects alikeness.** -/
def Apply.Respects (apply : Apply) : Prop :=
  ∀ ⦃w : Pairing⦄ ⦃params : List Param⦄ ⦃body : Expr⦄ ⦃b c : Bindings⦄ ⦃env env' : Env⦄
    ⦃args args' : List Value⦄, (Expr.lambda params body).ReadAlike w b c env env' →
    List.Forall₂ (Value.Alike w) args args' →
    Agree w Value.Alike (apply ⟨params, body.subst (b.without params)⟩ env args)
      (apply ⟨params, body.subst (c.without params)⟩ env' args')

namespace Apply.Respects

variable {apply : Apply} {w : Pairing}

/-- Alike values are called alike. -/
theorem value (happly : apply.Respects) {f g : Value} {args args' : List Value}
    (hf : f.Alike w g) (hargs : List.Forall₂ (Value.Alike w) args args') :
    Agree w Value.Alike (apply.value f args) (apply.value g args') := by
  have text := congrArg EvalError.notCallable hf.text_eq
  have same := hf
  cases hf with
  | closure =>
      obtain ⟨-, params, body, b, c, left, right, reads⟩ := same.closure_inv
      simp only [Apply.value]
      rw [left, right]
      exact happly reads hargs
  | _ => exact Agree.fault text

theorem any (happly : apply.Respects) {f g : Value} {vs vs' : List Value} (hf : f.Alike w g)
    (hvs : List.Forall₂ (Value.Alike w) vs vs') :
    Agree w (fun _ x y => x = y) (apply.any f vs) (apply.any g vs') := by
  induction vs generalizing w vs' with
  | nil =>
      cases hvs
      exact Agree.pure rfl
  | cons x xs ih =>
      obtain ⟨y, ys, hxy, hrest, rfl⟩ := List.forall₂_cons_left_iff.mp hvs
      simp only [Apply.any]
      refine (happly.value hf (.cons hxy .nil)).bind fun k r s hrs => ?_
      have later := Value.Alike.persistent (w.le_grow k)
      have next := ih (later hf) (hrest.imp fun _ _ h => later h)
      have mismatch := hrs.mismatch_eq Builtin.any.name
      cases hrs with
      | null => exact next
      | bool b =>
          cases b with
          | false => exact next
          | true => exact Agree.pure rfl
      | _ => exact Agree.fault mismatch

/-- Functions of one argument that agree on alike arguments agree on alike lists of arguments. -/
private theorem withOne {f g : Value → EvalM Value} {args args' : List Value}
    (hargs : List.Forall₂ (Value.Alike w) args args')
    (h : ∀ a b, a.Alike w b → Agree w Value.Alike (f a) (g b)) :
    Agree w Value.Alike (Builtin.withOne args f) (Builtin.withOne args' g) := by
  have count := congrArg (EvalError.arity 1) hargs.length_eq
  cases hargs with
  | nil => exact Agree.fault rfl
  | cons hab hrest =>
      cases hrest with
      | nil => exact h _ _ hab
      | cons => exact Agree.fault count

/-- A test of members takes two arguments. -/
private theorem any_arity {args : List Value} (h : args.length ≠ 2) :
    Builtin.any.apply apply args = .fault (.arity 2 args.length) := by
  simp only [Builtin.apply]
  split <;> first | rfl | simp at h

/-- **Built-in functions respect alikeness.** -/
theorem builtin (happly : apply.Respects) (func : Builtin) {args args' : List Value}
    (hargs : List.Forall₂ (Value.Alike w) args args') :
    Agree w Value.Alike (func.apply apply args) (func.apply apply args') := by
  have count := congrArg (EvalError.arity 2) hargs.length_eq
  cases func with
  | toString =>
      refine withOne hargs fun a b hab => Agree.pure ?_
      rw [hab.render_eq]
      exact .str _
  | len =>
      refine withOne hargs fun a b hab => ?_
      have mismatch := hab.mismatch_eq Builtin.len.name
      cases hab with
      | null => exact Agree.pure .null
      | str s => exact Agree.pure (.int _)
      | list length_eq => exact Agree.pure (by rw [length_eq]; exact .int _)
      | _ => exact Agree.fault mismatch
  | isEmpty =>
      refine withOne hargs fun a b hab => ?_
      have mismatch := hab.mismatch_eq Builtin.isEmpty.name
      have same := hab
      cases hab with
      | null => exact Agree.pure (.bool true)
      | list =>
          refine Agree.pure ?_
          cases Value.Alike.list_iff.mp same with
          | nil => exact .bool true
          | cons => exact .bool false
      | _ => exact Agree.fault mismatch
  | any =>
      cases hargs with
      | nil => exact Agree.fault rfl
      | cons hab hrest =>
          cases hrest with
          | nil =>
              rw [any_arity (by simp), any_arity (by simp)]
              exact Agree.fault count
          | cons hf hrest =>
              cases hrest with
              | cons =>
                  rw [any_arity (by simp), any_arity (by simp)]
                  exact Agree.fault count
              | nil =>
                  have mismatch := hab.mismatch_eq Builtin.any.name
                  have same := hab
                  cases hab with
                  | null => exact Agree.pure (.bool false)
                  | list =>
                      refine (happly.any hf (Value.Alike.list_iff.mp same)).bind ?_
                      rintro k x y rfl
                      exact Agree.pure (.bool x)
                  | _ => exact Agree.fault mismatch

end Apply.Respects

/-! ## Evaluation -/

namespace Expr

variable {apply : Apply}

/-- Lists of expressions whose evaluations agree have values that are alike. -/
private theorem evalList_agree {w : Pairing} {b c : Bindings} {env env' : Env} {es : List Expr}
    (ih : ∀ e ∈ es, ∀ {v : Pairing}, e.ReadAlike v b c env env' →
      Agree v Value.Alike ((e.subst b).eval apply env) ((e.subst c).eval apply env'))
    (h : ∀ e ∈ es, e.ReadAlike w b c env env') :
    Agree w (fun v => List.Forall₂ (Value.Alike v)) (evalList apply env (substList b es))
      (evalList apply env' (substList c es)) := by
  rw [substList_eq_map, substList_eq_map, evalList_eq_mapM, evalList_eq_mapM]
  refine Agree.mapM Value.Alike.persistent ?_ w le_rfl
  rw [List.forall₂_map_left_iff, List.forall₂_map_right_iff, List.forall₂_same]
  exact fun e he v hv => ih e he ((h e he).mono hv)

/-- Fields whose evaluations agree have values that are alike. -/
private theorem evalFields_agree {w : Pairing} {b c : Bindings} {env env' : Env}
    {fs : List (String × Expr)}
    (ih : ∀ f ∈ fs, ∀ {v : Pairing}, f.2.ReadAlike v b c env env' →
      Agree v Value.Alike ((f.2.subst b).eval apply env) ((f.2.subst c).eval apply env'))
    (h : ∀ f ∈ fs, f.2.ReadAlike w b c env env') :
    Agree w Value.Alike.Fields (evalFields apply env (substFields b fs))
      (evalFields apply env' (substFields c fs)) := by
  rw [substFields_eq_map, substFields_eq_map, evalFields_eq_mapM, evalFields_eq_mapM]
  refine Agree.mapM (R := fun v (x y : String × Value) => x.1 = y.1 ∧ x.2.Alike v y.2) ?_ ?_ w
    le_rfl
  · exact fun _ _ hv _ _ hxy => ⟨hxy.1, Value.Alike.persistent hv hxy.2⟩
  · rw [List.forall₂_map_left_iff, List.forall₂_map_right_iff, List.forall₂_same]
    intro f hf v hv
    refine (ih f hf ((h f hf).mono hv)).bind fun k x y hxy => ?_
    exact Agree.pure ⟨rfl, hxy⟩

/-- **Evaluations agree** if calls do. -/
theorem eval_agree (happly : apply.Respects) (e : Expr) {w : Pairing} {b c : Bindings}
    {env env' : Env} (h : e.ReadAlike w b c env env') :
    Agree w Value.Alike ((e.subst b).eval apply env) ((e.subst c).eval apply env') := by
  induction e generalizing w with
  | param p =>
      have hp : p ∈ (Expr.param p).freeRefs := by simp [freeRefs]
      rw [eval_of_isPath apply env (isPath_subst_param h.left hp),
        eval_of_isPath apply env' (isPath_subst_param h.right hp)]
      exact Agree.lift (h.reads p hp)
  | lit l =>
      have known : ∀ i ∈ (Value.ofLiteral l).closureIds, w.rel i i := by
        cases l <;> simp [Value.ofLiteral, Value.closureIds]
      exact Agree.pure (Value.Alike.refl known)
  | member object name ty ih =>
      simp only [subst, eval]
      refine (ih (h.part (by simp [freeRefs]) (by simp [declared]))).bind fun k x y hxy => ?_
      exact Agree.lift (hxy.member name)
  | unary op operand ty ih =>
      simp only [subst, eval]
      refine (ih (h.part (by simp [freeRefs]) (by simp [declared]))).bind fun k x y hxy => ?_
      exact Agree.lift (hxy.unary op)
  | binary op lhs rhs ty ihl ihr =>
      have hr : rhs.ReadAlike w b c env env' := h.part (by simp [freeRefs]) (by simp [declared])
      simp only [subst, eval]
      refine (ihl (h.part (by simp [freeRefs]) (by simp [declared]))).bind fun k x y hxy => ?_
      refine (Agree.lift (R := fun v => Option.Rel (Value.Alike v)) (hxy.decided? op)).bind
        fun l r s hrs => ?_
      cases hrs with
      | some hv => exact Agree.pure hv
      | none =>
          have later : w ≤ (w.grow k).grow l := (w.le_grow k).trans (Pairing.le_grow _ l)
          refine (ihr (hr.mono later)).bind fun m x' y' hxy' => ?_
          refine Agree.lift (Value.Alike.binary op ?_ hxy')
          exact Value.Alike.persistent ((Pairing.le_grow _ l).trans (Pairing.le_grow _ m)) hxy
  | call func args ty ih =>
      simp only [subst, eval]
      have hargs : ∀ e ∈ args, e.ReadAlike w b c env env' := fun e he =>
        h.item (by simp [freeRefs]) (by simp [declared]) he
      refine (evalList_agree ih hargs).bind fun k xs ys hxs => ?_
      exact happly.builtin func hxs
  | ite cond thenBranch elseBranch ty ihc iht ihe =>
      have hthen : thenBranch.ReadAlike w b c env env' :=
        h.part (by simp [freeRefs]) (by simp [declared])
      have helse : elseBranch.ReadAlike w b c env env' :=
        h.part (by simp [freeRefs]) (by simp [declared])
      simp only [subst, eval]
      refine (ihc (h.part (by simp [freeRefs]) (by simp [declared]))).bind fun k x y hxy => ?_
      refine (Agree.lift (R := fun _ x y => x = y) hxy.asCondition).bind ?_
      rintro l test _ rfl
      have later : w ≤ (w.grow k).grow l := (w.le_grow k).trans (Pairing.le_grow _ l)
      cases test with
      | true => exact iht (hthen.mono later)
      | false => exact ihe (helse.mono later)
  | construct ty fields ih =>
      simp only [subst, eval]
      refine (evalFields_agree (w := w) ih fun f hf => h.part ?_ ?_).bind fun k xs ys hxs => ?_
      · intro p hp
        simp only [freeRefs, freeRefsFields_eq_flatMap, List.mem_flatMap]
        exact ⟨f, hf, hp⟩
      · intro i hi
        simp only [declared, declaredFields_eq_flatMap, List.mem_flatMap]
        exact ⟨f, hf, hi⟩
      · exact Agree.pure (Value.Alike.record_iff.mpr ⟨rfl, hxs⟩)
  | tuple items ih =>
      simp only [subst, eval]
      have hitems : ∀ e ∈ items, e.ReadAlike w b c env env' := fun e he =>
        h.item (by simp [freeRefs]) (by simp [declared]) he
      refine (evalList_agree ih hitems).bind fun k xs ys hxs => ?_
      exact Agree.pure (Value.Alike.tuple_iff.mpr hxs)
  | list elemTy items ih =>
      simp only [subst, eval]
      have hitems : ∀ e ∈ items, e.ReadAlike w b c env env' := fun e he =>
        h.item (by simp [freeRefs]) (by simp [declared]) he
      refine (evalList_agree ih hitems).bind fun k xs ys hxs => ?_
      exact Agree.pure (Value.Alike.list_iff.mpr hxs)
  | lambda params body ih =>
      simp only [subst, eval]
      refine Agree.newClosure.bind fun k i j hij => ?_
      exact Agree.pure (Value.Alike.ofReadAlike hij (h.mono (w.le_grow k)))
  | invoke callee args ty ihc ih =>
      have hargs : ∀ e ∈ args, e.ReadAlike w b c env env' := fun e he =>
        h.item (by simp [freeRefs]) (by simp [declared]) he
      simp only [subst, eval]
      refine (ihc (h.part (by simp [freeRefs]) (by simp [declared]))).bind fun k f g hfg => ?_
      have later := fun e he => (hargs e he).mono (w.le_grow k)
      refine (evalList_agree ih later).bind fun l xs ys hxs => ?_
      exact happly.value (Value.Alike.persistent (Pairing.le_grow _ l) hfg) hxs

end Expr

/-! ## Calls -/

namespace Lambda

/-- **Calls respect alikeness**, to whatever depth they may nest. -/
theorem apply_respects (depth : Nat) : (Lambda.apply depth).Respects := by
  induction depth with
  | zero => exact fun _ _ _ _ _ _ _ _ _ _ _ => Agree.throw _
  | succ depth ih =>
      intro w params body b c env env' args args' h hargs
      simp only [apply]
      rw [← hargs.length_eq]
      by_cases hlen : params.length = args.length
      · rw [if_pos hlen, if_pos hlen]
        exact body.eval_agree ih (h.body hargs hlen)
      · rw [if_neg hlen, if_neg hlen]
        exact Agree.fault rfl

/-- **One function behaves alike** on alike arguments. -/
theorem call_agree (depth : Nat) (f : Lambda) {w : Pairing} {args args' : List Value}
    (hargs : List.Forall₂ (Value.Alike w) args args') :
    Agree w Value.Alike (f.call depth args) (f.call depth args') := by
  have reads : (Expr.lambda f.params f.body).ReadAlike w [] [] [] [] :=
    ⟨Bindings.nil_into _, Bindings.nil_into _, fun p _ => by simp [Expr.read, Outcomes]⟩
  have agree := apply_respects depth reads hargs
  rw [show Bindings.without [] f.params = [] from rfl, Expr.subst_nil] at agree
  exact agree

end Lambda

/-- **Alike values behave alike when they are called**, whatever was paired in the meantime. -/
theorem Value.Alike.call {w v : Pairing} {f g : Value} {args args' : List Value}
    (hfg : f.Alike w g) (hwv : w ≤ v) (hargs : List.Forall₂ (Value.Alike v) args args')
    (depth : Nat) :
    Agree v Value.Alike ((Lambda.apply depth).value f args) ((Lambda.apply depth).value g args') :=
  (Lambda.apply_respects depth).value (Value.Alike.persistent hwv hfg) hargs

end RowQuery
