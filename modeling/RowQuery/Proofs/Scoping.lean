import RowQuery.Proofs.Substitution.Evaluation

/-!
# What evaluation can read

Evaluation reads an environment at the free parameters of the expression alone.  A closure takes the
whole environment along and reads it in later calls, but there, too, at the free parameters of its
function alone.  So a function whose body refers to no other parameters than its own never meets one
that is not bound.

* `Value.Scoped`, `Env.Scopes` — values whose closures captured what they refer to, and environments
  that bind what an expression refers to.
* `InScope`, `EvalM.InScope` — outcomes and computations that do not fail for want of a parameter.
* `Apply.KeepsScope` — a meaning of calls that never fails for want of a parameter, and makes values
  in scope of values in scope.
* **`Expr.eval_inScope`** — one evaluation keeps values in scope if calls do.
* **`Lambda.apply_keepsScope`** — calls do, to whatever depth they may nest.
* `Lambda.call_inScope` — functions without other free parameters than their own.
* `Expr.eval_agree_of_freeParams` — environments that agree on the free parameters.
* **`Expr.reads_freeParams`** — free parameters are all that is read.
-/

namespace RowQuery

/-! ## Values in scope -/

namespace Value

/-- **Values in scope.**  The closure rule: all that the function refers to freely is captured, and
what is captured is in scope itself. -/
inductive Scoped : Value → Prop
  | unit : Scoped .unit
  | null : Scoped .null
  | bool (b : Bool) : Scoped (.bool b)
  | int (n : Int64) : Scoped (.int n)
  | str (s : String) : Scoped (.str s)
  | tuple {items : List Value} (members : ∀ v ∈ items, Scoped v) : Scoped (.tuple items)
  | list {items : List Value} (members : ∀ v ∈ items, Scoped v) : Scoped (.list items)
  | record (name : String) {fields : List (String × Value)} (members : ∀ f ∈ fields, Scoped f.2) :
      Scoped (.record name fields)
  | closure (id : Nat) {f : Lambda} {captured : Env}
      (bound : ∀ p ∈ f.toExpr.freeRefs, p.id ∈ captured.map Prod.fst)
      (values : ∀ x ∈ captured, Scoped x.2) : Scoped (.closure id f captured)

/-- A value without closures is in scope. -/
theorem Scoped.of_closureFree {v : Value} (h : v.ClosureFree) : v.Scoped := by
  induction v with
  | unit => exact .unit
  | null => exact .null
  | bool b => exact .bool b
  | int n => exact .int n
  | str s => exact .str s
  | tuple items ih => exact .tuple fun v hv => ih v hv (closureFree_tuple.mp h v hv)
  | list items ih => exact .list fun v hv => ih v hv (closureFree_list.mp h v hv)
  | record name fields ih => exact .record name fun f hf => ih f hf (closureFree_record.mp h f hf)
  | closure => cases h

/-- Constants are in scope. -/
theorem scoped_ofLiteral (l : Literal) : (ofLiteral l).Scoped := by
  cases l <;> exact .of_closureFree rfl

end Value

namespace Env

/-- **Environments for an expression**: all that it refers to freely is bound, and the values are in
scope. -/
structure Scopes (env : Env) (e : Expr) : Prop where
  bound : ∀ p ∈ e.freeRefs, p.id ∈ env.map Prod.fst
  values : ∀ x ∈ env, x.2.Scoped

namespace Scopes

variable {env : Env} {e : Expr}

/-- They are environments for what it is put together of. -/
theorem child {child : Expr} (h : env.Scopes e) (compound : e.Compound)
    (mem : child ∈ e.children) : env.Scopes child :=
  ⟨fun p hp => h.bound p (compound.freeRefs_subset mem hp), h.values⟩

/-- What it refers to has a value in scope. -/
theorem exists_value (h : env.Scopes e) {p : Param} (hp : p ∈ e.freeRefs) :
    ∃ v, env.lookup p.id = some v ∧ v.Scoped := by
  obtain ⟨v, found⟩ := exists_lookup (h.bound p hp)
  exact ⟨v, found, h.values _ (mem_of_lookup found)⟩

/-- **The body of a function** finds its parameters once the arguments are bound. -/
theorem body {f : Lambda} {args : List Value} (h : env.Scopes f.toExpr)
    (hlen : f.params.length = args.length) (hargs : ∀ v ∈ args, v.Scoped) :
    (env.bind f.params args).Scopes f.body := by
  have keys : ((f.params.map (·.id)).zip args).map Prod.fst = f.params.map (·.id) :=
    List.map_fst_zip (by simp [hlen])
  constructor
  · intro p hp
    rw [Env.bind, List.map_append, List.map_reverse, keys, List.mem_append, List.mem_reverse]
    by_cases declared : p.id ∈ f.params.map (·.id)
    · exact .inl declared
    · exact .inr (h.bound p (Expr.mem_freeRefs_lambda.mpr ⟨hp, declared⟩))
  · intro x hx
    rcases List.mem_append.mp hx with hx | hx
    · exact hargs x.2 (List.of_mem_zip (List.mem_reverse.mp hx)).2
    · exact h.values x hx

end Scopes

end Env

/-! ## Outcomes in scope -/

/-- **Outcomes in scope**: a result with a property, or a failure other than that a parameter is not
bound. -/
def InScope {α : Type} (P : α → Prop) : Except EvalError α → Prop
  | .ok a => P a
  | .error e => ∀ name, e ≠ .unboundParam name

namespace InScope

variable {α β : Type} {P : α → Prop} {Q : β → Prop}

theorem mismatch (op : String) (v : Value) : InScope P (throw (.mismatch op v)) := fun _ h => by
  cases h

theorem bind {r : Except EvalError α} {f : α → Except EvalError β} (hr : InScope P r)
    (hf : ∀ a, P a → InScope Q (f a)) : InScope Q (r >>= f) := by
  cases r with
  | ok a => exact hf a hr
  | error e => exact hr

end InScope

/-! ## Operators -/

theorem negateWord_inScope (a : Int64) : InScope (fun _ => True) (negateWord a) := by
  unfold negateWord
  split
  · trivial
  · exact fun _ h => by cases h

theorem ArithOp.onWords_inScope (op : ArithOp) (a b : Int64) :
    InScope (fun _ => True) (op.onWords a b) := by
  unfold onWords
  split
  · exact fun _ h => by cases h
  · split
    · exact fun _ h => by cases h
    · trivial
    · exact fun _ h => by cases h

namespace Value

variable {v : Value}

/-- A member of a value in scope is in scope. -/
theorem Scoped.member (h : v.Scoped) (name : String) : InScope Scoped (v.member name) := by
  cases h with
  | null => exact Scoped.null
  | record _ members =>
      simp only [Value.member]
      split
      case h_1 found => exact members _ (mem_of_lookup found)
      case h_2 => exact fun _ h => by cases h
  | _ => exact InScope.mismatch _ _

theorem asCondition_inScope (v : Value) : InScope (fun _ => True) v.asCondition := by
  unfold asCondition
  split
  · trivial
  · trivial
  · exact InScope.mismatch _ _

end Value

theorem UnaryOp.apply_inScope (op : UnaryOp) (v : Value) : InScope Value.Scoped (op.apply v) := by
  unfold UnaryOp.apply
  split
  · exact Value.Scoped.null
  · exact Value.Scoped.bool _
  · exact (negateWord_inScope _).bind fun n _ => Value.Scoped.int n
  · exact InScope.mismatch _ _

theorem ArithOp.apply_inScope (op : ArithOp) (a b : Value) :
    InScope Value.Scoped (op.apply a b) := by
  unfold ArithOp.apply
  split
  · exact Value.Scoped.null
  · exact Value.Scoped.null
  · exact (op.onWords_inScope _ _).bind fun n _ => Value.Scoped.int n
  · exact InScope.mismatch _ _
  · exact InScope.mismatch _ _

theorem OrderOp.apply_inScope (op : OrderOp) (a b : Value) :
    InScope Value.Scoped (op.apply a b) := by
  unfold OrderOp.apply
  split
  · exact Value.Scoped.bool _
  · exact Value.Scoped.bool _
  · exact Value.Scoped.bool _
  · exact Value.Scoped.bool _
  · exact InScope.mismatch _ _

namespace BinaryOp

/-- The result that the left operand decides is in scope if the operand is. -/
theorem decided?_inScope (op : BinaryOp) {left : Value} (h : left.Scoped) :
    InScope (fun o => ∀ v, o = some v → v.Scoped) (op.decided? left) := by
  have undecided : ∀ v, (none : Option Value) = some v → v.Scoped := fun _ h => nomatch h
  have decided {u : Value} (hu : u.Scoped) : ∀ v, some u = some v → v.Scoped := by
    rintro _ ⟨⟩
    exact hu
  unfold decided?
  split
  · exact decided (.bool false)
  · exact undecided
  · exact decided (.bool true)
  · exact undecided
  · exact InScope.mismatch _ _
  · exact InScope.mismatch _ _
  · exact undecided
  · exact decided h
  · exact undecided

/-- The result of two operands is in scope if the right one is. -/
theorem apply_inScope (op : BinaryOp) (left : Value) {right : Value} (h : right.Scoped) :
    InScope Value.Scoped (op.apply left right) := by
  unfold BinaryOp.apply
  split
  · split
    · exact Value.Scoped.str _
    · exact Value.Scoped.str _
    · exact ArithOp.apply_inScope _ _ _
  · exact ArithOp.apply_inScope _ _ _
  · exact OrderOp.apply_inScope _ _ _
  · exact Value.Scoped.bool _
  · exact Value.Scoped.bool _
  · split
    · exact Value.Scoped.bool _
    · exact InScope.mismatch _ _
  · split
    · exact Value.Scoped.bool _
    · exact InScope.mismatch _ _
  · exact h

end BinaryOp

/-! ## Computations in scope -/

namespace EvalM

/-- **Computations in scope**: they end with results that have a property or fail, whichever closure
is next, but not for want of a parameter. -/
def InScope {α : Type} (P : α → Prop) (c : EvalM α) : Prop :=
  ∀ n, match c n with
    | .ok (a, _) => P a
    | .error halt => ∀ name, halt ≠ .fault (.unboundParam name)

namespace InScope

variable {α β : Type} {P : α → Prop} {Q : β → Prop}

theorem pure {a : α} (h : P a) : InScope P (Pure.pure a : EvalM α) := fun _ => h

theorem fault {e : EvalError} (h : ∀ name, e ≠ .unboundParam name) :
    InScope P (EvalM.fault e : EvalM α) := by
  rintro _ name ⟨⟩
  exact h name rfl

theorem mismatch (op : String) (v : Value) : InScope P (EvalM.fault (.mismatch op v) : EvalM α) :=
  fault fun _ h => by cases h

theorem arity (expected found : Nat) :
    InScope P (EvalM.fault (.arity expected found) : EvalM α) :=
  fault fun _ h => by cases h

theorem lift {r : Except EvalError α} (h : RowQuery.InScope P r) : InScope P (EvalM.lift r) := by
  cases r with
  | ok a => exact pure h
  | error e => exact fault h

/-- Computations one after the other are in scope if both are. -/
theorem bind {c : EvalM α} {f : α → EvalM β} (hc : InScope P c) (hf : ∀ a, P a → InScope Q (f a)) :
    InScope Q (c >>= f) := by
  intro n
  have first := hc n
  have run : (c >>= f) n = c n >>= fun x => f x.1 x.2 := rfl
  rw [run]
  generalize c n = r at first ⊢
  match r with
  | .ok (a, k) => exact hf a first k
  | .error halt => exact first

theorem mapM {σ : Type} {f : σ → EvalM α} {xs : List σ} (h : ∀ x ∈ xs, InScope P (f x)) :
    InScope (fun as => ∀ a ∈ as, P a) (xs.mapM f) := by
  induction xs with
  | nil => exact pure (List.forall_mem_nil _)
  | cons x xs ih =>
      obtain ⟨head, tail⟩ := List.forall_mem_cons.mp h
      rw [List.mapM_cons]
      exact head.bind fun a ha => (ih tail).bind fun as has =>
        pure (List.forall_mem_cons.mpr ⟨ha, has⟩)

end InScope

end EvalM

/-! ## Calls of values -/

/-- **A meaning of calls that keeps values in scope.** -/
def Apply.KeepsScope (apply : Apply) : Prop :=
  ∀ ⦃f : Lambda⦄ ⦃captured : Env⦄ ⦃args : List Value⦄, captured.Scopes f.toExpr →
    (∀ v ∈ args, v.Scoped) → (apply f captured args).InScope Value.Scoped

namespace Apply.KeepsScope

variable {apply : Apply}

theorem value (happly : apply.KeepsScope) {f : Value} {args : List Value} (hf : f.Scoped)
    (hargs : ∀ v ∈ args, v.Scoped) : (apply.value f args).InScope Value.Scoped := by
  cases hf with
  | closure id bound values => exact happly ⟨bound, values⟩ hargs
  | _ => exact .fault fun _ h => by cases h

theorem any (happly : apply.KeepsScope) {predicate : Value} {items : List Value}
    (hpredicate : predicate.Scoped) (hitems : ∀ v ∈ items, v.Scoped) :
    (apply.any predicate items).InScope fun _ => True := by
  induction items with
  | nil => exact .pure trivial
  | cons v vs ih =>
      obtain ⟨head, tail⟩ := List.forall_mem_cons.mp hitems
      simp only [Apply.any]
      refine (happly.value hpredicate (List.forall_mem_singleton.mpr head)).bind fun r _ => ?_
      split
      · exact .pure trivial
      · exact ih tail
      · exact ih tail
      · exact .mismatch _ _

/-- A function of one argument, or the failure of one given more or fewer. -/
private theorem withOne {args : List Value} {f : Value → EvalM Value}
    (h : ∀ v ∈ args, (f v).InScope Value.Scoped) :
    (Builtin.withOne args f).InScope Value.Scoped := by
  unfold Builtin.withOne
  split
  · exact h _ List.mem_cons_self
  · exact .arity _ _

/-- **Built-in functions** keep values in scope. -/
theorem builtin (happly : apply.KeepsScope) (func : Builtin) {args : List Value}
    (hargs : ∀ v ∈ args, v.Scoped) : (func.apply apply args).InScope Value.Scoped := by
  cases func with
  | toString => exact withOne fun v _ => .pure (.str _)
  | len =>
      refine withOne fun v _ => ?_
      split
      · exact .pure (.int _)
      · exact .pure (.int _)
      · exact .pure .null
      · exact .mismatch _ _
  | isEmpty =>
      refine withOne fun v _ => ?_
      split
      · exact .pure (.bool _)
      · exact .pure (.bool _)
      · exact .mismatch _ _
  | any =>
      simp only [Builtin.apply]
      split
      case h_1 items predicate =>
        obtain ⟨first, rest⟩ := List.forall_mem_cons.mp hargs
        cases first with
        | list members =>
            have test := happly.any (List.forall_mem_singleton.mp rest) members
            exact test.bind fun b _ => .pure (.bool b)
      · exact .pure (.bool _)
      · exact .mismatch _ _
      · exact .arity _ _

end Apply.KeepsScope

/-! ## Evaluation -/

namespace Expr

/-- Lists of expressions whose values are in scope have values in scope. -/
private theorem evalList_inScope {apply : Apply} {env : Env} {es : List Expr}
    (ih : ∀ e ∈ es, env.Scopes e → (e.eval apply env).InScope Value.Scoped)
    (h : ∀ e ∈ es, env.Scopes e) :
    (evalList apply env es).InScope fun vs => ∀ v ∈ vs, v.Scoped := by
  rw [evalList_eq_mapM]
  exact .mapM fun e he => ih e he (h e he)

/-- **Evaluation keeps values in scope** if calls do. -/
theorem eval_inScope {apply : Apply} (happly : apply.KeepsScope) {e : Expr} {env : Env}
    (h : env.Scopes e) : (e.eval apply env).InScope Value.Scoped := by
  induction e with
  | param p =>
      obtain ⟨v, found, hv⟩ := h.exists_value (List.mem_singleton.mpr rfl)
      rw [eval, found]
      exact .pure hv
  | lit l => exact .pure (Value.scoped_ofLiteral l)
  | member object name ty ih =>
      rw [eval]
      exact (ih (h.child trivial List.mem_cons_self)).bind fun v hv => .lift (hv.member name)
  | unary op operand ty ih =>
      rw [eval]
      exact (ih (h.child trivial List.mem_cons_self)).bind fun v _ => .lift (op.apply_inScope v)
  | binary op lhs rhs ty ihl ihr =>
      have hrhs : env.Scopes rhs := h.child trivial (by simp [children])
      rw [eval]
      refine (ihl (h.child trivial List.mem_cons_self)).bind fun left hleft => ?_
      refine (EvalM.InScope.lift (op.decided?_inScope hleft)).bind fun o ho => ?_
      cases o with
      | some v => exact .pure (ho v rfl)
      | none => exact (ihr hrhs).bind fun right hright => .lift (op.apply_inScope left hright)
  | call func args ty ih =>
      rw [eval]
      exact (evalList_inScope ih fun e he => h.child trivial he).bind fun vs hvs =>
        happly.builtin func hvs
  | ite cond thenBranch elseBranch ty ihc iht ihe =>
      have hthen : env.Scopes thenBranch := h.child trivial (by simp [children])
      have helse : env.Scopes elseBranch := h.child trivial (by simp [children])
      rw [eval]
      refine (ihc (h.child trivial List.mem_cons_self)).bind fun v _ => ?_
      refine (EvalM.InScope.lift v.asCondition_inScope).bind fun test _ => ?_
      cases test with
      | true => exact iht hthen
      | false => exact ihe helse
  | construct ty fields ih =>
      have scopes : ∀ f ∈ fields, env.Scopes f.2 := fun f hf =>
        h.child trivial (List.mem_map_of_mem hf)
      have values : (evalFields apply env fields).InScope fun vs => ∀ x ∈ vs, x.2.Scoped := by
        rw [evalFields_eq_mapM]
        exact .mapM fun f hf => (ih f hf (scopes f hf)).bind fun v hv => .pure hv
      rw [eval]
      exact values.bind fun vs hvs => .pure (.record _ hvs)
  | tuple items ih =>
      rw [eval]
      exact (evalList_inScope ih fun e he => h.child trivial he).bind fun vs hvs =>
        .pure (.tuple hvs)
  | list elemTy items ih =>
      rw [eval]
      exact (evalList_inScope ih fun e he => h.child trivial he).bind fun vs hvs =>
        .pure (.list hvs)
  | lambda params body =>
      rw [eval]
      intro n
      exact Value.Scoped.closure n h.bound h.values
  | invoke callee args ty ihc ih =>
      rw [eval]
      refine (ihc (h.child trivial List.mem_cons_self)).bind fun f hf => ?_
      have values := evalList_inScope ih fun e he => h.child trivial (List.mem_cons_of_mem _ he)
      exact values.bind fun vs hvs => happly.value hf hvs

end Expr

/-! ## Calls -/

namespace Lambda

/-- **Calls keep values in scope**, to whatever depth they may nest. -/
theorem apply_keepsScope (depth : Nat) : (apply depth).KeepsScope := by
  induction depth with
  | zero =>
      intro _ _ _ _ _ n name h
      cases h
  | succ depth ih =>
      intro f captured args scopes hargs
      simp only [apply]
      split
      case isTrue hlen => exact Expr.eval_inScope ih (scopes.body hlen hargs)
      case isFalse => exact .arity _ _

/-- **A function without other free parameters than its own** keeps values in scope. -/
theorem call_inScope {f : Lambda} (closed : ∀ p ∈ f.body.freeParams, p.id ∈ f.params.map (·.id))
    {args : List Value} (hargs : ∀ v ∈ args, v.Scoped) (depth : Nat) :
    (f.call depth args).InScope Value.Scoped := by
  refine apply_keepsScope depth ⟨fun p hp => ?_, List.forall_mem_nil _⟩ hargs
  obtain ⟨inner, free⟩ := Expr.mem_freeRefs_lambda.mp hp
  obtain ⟨q, hq, same⟩ := Expr.exists_mem_freeParams inner
  exact absurd (same ▸ closed q hq) free

end Lambda

/-! ## Free parameters -/

namespace Expr

/-- **Evaluations agree** in environments that agree on the free parameters. -/
theorem eval_agree_of_freeParams {e : Expr} {env env' : Env} {m n : Nat}
    (same : ∀ p ∈ e.freeParams, env.lookup p.id = env'.lookup p.id) (left : env.Known m)
    (right : env'.Known n) (depth : Nat) :
    Agree (Pairing.known m n) Value.Alike (e.eval (Lambda.apply depth) env)
      (e.eval (Lambda.apply depth) env') := by
  have reads : e.ReadAlike (Pairing.known m n) [] [] env env' := by
    refine ⟨Bindings.nil_into e, Bindings.nil_into e, fun p hp => ?_⟩
    obtain ⟨q, hq, id_eq⟩ := exists_mem_freeParams hp
    have same := same q hq
    rw [id_eq] at same
    rw [subst_nil, read, read, same]
    cases found : env'.lookup p.id with
    | none => rfl
    | some v =>
        rw [found] at same
        exact .known (left _ (mem_of_lookup same)) (right _ (mem_of_lookup found))
  have agree := e.eval_agree (Lambda.apply_respects depth) reads
  rwa [subst_nil] at agree

/-- **Evaluation reads free parameters alone.**  In two environments that agree on the free
parameters of an expression, the evaluations end alike, to whatever depth calls may nest: both with
results that a bisimulation relates, which are equal if they have no closures, or both with the same
failure.  A function whose body has no other free parameters than the declared ones, called with
arguments without closures, never meets a parameter that is not bound, whatever closures it makes,
passes around and calls. -/
theorem reads_freeParams (e : Expr) (f : Lambda) :
    (∃ R, Value.Bisimulation R ∧ (∀ w a b, R w a b → a.ClosureFree → a = b) ∧
      ∀ (env env' : Env) (depth m n : Nat),
        (∀ p ∈ e.freeParams, env.lookup p.id = env'.lookup p.id) → env.Known m → env'.Known n →
        Agree (Pairing.known m n) R (e.eval (Lambda.apply depth) env)
          (e.eval (Lambda.apply depth) env')) ∧
    ((∀ p ∈ f.body.freeParams, p.id ∈ f.params.map (·.id)) →
      ∀ (args : List Value) (depth n : Nat) (name : String), (∀ v ∈ args, v.ClosureFree) →
        (f.call depth args).run n ≠ .error (.fault (.unboundParam name))) := by
  constructor
  · refine ⟨Value.Alike, Value.Alike.bisimulation, ?_, ?_⟩
    · exact fun _ _ _ => Value.Alike.bisimulation.eq_of_closureFree
    · exact fun _ _ depth _ _ same left right => eval_agree_of_freeParams same left right depth
  · intro closed args depth n name free unbound
    have inScope := Lambda.call_inScope closed (fun v hv => .of_closureFree (free v hv)) depth n
    rw [show f.call depth args n = _ from unbound] at inScope
    exact inScope name rfl

/-- `|x| (|g| g(x))(|y| x + y)`, where one closure calls another and both read `x`. -/
def doubled : Lambda :=
  let x : Param := ⟨⟨100⟩, "x", .int⟩
  let y : Param := ⟨⟨101⟩, "y", .int⟩
  let g : Param := ⟨⟨102⟩, "g", .fn [.int] .int⟩
  ⟨[x], .invokeOf (.lambda [g] (.invokeOf (.param g) [.param x]))
    [.lambda [y] (.binaryOf (.arith .add) (.param x) (.param y))]⟩

/-- Its body in two environments that agree on `x` alone, and the function called. -/
theorem reads_freeParams_doubled :
    let env : Env := [(⟨102⟩, .unit), (⟨100⟩, .int 21)]
    let env' : Env := [(⟨100⟩, .int 21), (⟨101⟩, .str "y")]
    (∃ R, Value.Bisimulation R ∧ ∀ depth,
      Agree (Pairing.known 0 0) R (doubled.body.eval (Lambda.apply depth) env)
        (doubled.body.eval (Lambda.apply depth) env')) ∧
    (∀ depth n name, (doubled.call depth [.int 21]).run n ≠ .error (.fault (.unboundParam name))) ∧
      (doubled.call 3 [.int 21]).run 0 = .ok (.int 42, 2) := by
  intro env env'
  obtain ⟨⟨R, bisimulation, -, agree⟩, bound⟩ := reads_freeParams doubled.body doubled
  have same : ∀ p ∈ doubled.body.freeParams, env.lookup p.id = env'.lookup p.id :=
    List.forall_mem_singleton.mpr rfl
  have left : env.Known 0 := by simp [env, Env.Known, Value.Known, Value.closureIds]
  have right : env'.Known 0 := by simp [env', Env.Known, Value.Known, Value.closureIds]
  refine ⟨⟨R, bisimulation, fun depth => agree env env' depth 0 0 same left right⟩, ?_, rfl⟩
  intro depth n name
  exact bound (by decide) [.int 21] depth n name (List.forall_mem_singleton.mpr rfl)

end Expr

end RowQuery
