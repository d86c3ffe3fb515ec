import RowQuery.Proofs.Relabeling.Basic

/-!
# Evaluation under other ids and names

Evaluation resolves references by id and looks at no name, except to report one that is not bound.
With other ids and names every evaluation makes the same closures at the same places, and ends with
the relabeled value, or with the relabeled failure.

* `EvalError.relabel`, `Halt.relabel` — failures that report another name.
* `Relabeling.under` — a computation with its result and its failure relabeled.
* `Relabeling.under_bind`, `Relabeling.mapM_under` — relabeling goes into what is composed.
* `Value.member_relabel`, `UnaryOp.apply_relabel`, `BinaryOp.apply_relabel` — one lemma for each
  kind of operator.
* `Apply.Commutes` — a meaning of calls that relabeling does not change.
* **`Expr.eval_relabel`** — evaluation and relabeling can be exchanged, if calls allow it.
* **`Lambda.apply_commutes`** — calls do, to whatever depth they may nest.
-/

namespace RowQuery

/-! ## Failures -/

/-- A failure that reports the other name of a parameter. -/
def EvalError.relabel (r : Relabeling) : EvalError → EvalError
  | .unboundParam name => .unboundParam (r.newName name)
  | e => e

/-- A failure or the bound on calls, which names nothing. -/
def Halt.relabel (r : Relabeling) : Halt → Halt
  | .fault e => .fault (e.relabel r)
  | .depth => .depth

/-! ## Computations -/

namespace Relabeling

variable {α β γ δ : Type} (r : Relabeling)

/-- An operation on values with its result and its failure relabeled. -/
def outcome (g : α → β) : Except EvalError α → Except EvalError β
  | .ok a => .ok (g a)
  | .error e => .error (e.relabel r)

/-- **A computation with its result and its failure relabeled.** -/
def under (g : α → β) (m : EvalM α) : EvalM β := fun n =>
  match m n with
  | .ok (a, next) => .ok (g a, next)
  | .error halt => .error (halt.relabel r)

variable {r}

@[simp]
theorem under_pure (g : α → β) (a : α) : r.under g (pure a) = pure (g a) := rfl

@[simp]
theorem under_fault (g : α → β) (e : EvalError) :
    r.under g (EvalM.fault e) = EvalM.fault (e.relabel r) := rfl

@[simp]
theorem under_newClosure : r.under id EvalM.newClosure = EvalM.newClosure := rfl

/-- Operations on values, as computations. -/
theorem lift_under {g : α → β} {x : Except EvalError α} {x' : Except EvalError β}
    (h : x' = r.outcome g x) : EvalM.lift x' = r.under g (EvalM.lift x) := by
  subst h
  cases x <;> rfl

/-- **Relabeling goes into what is composed.** -/
theorem under_bind {g : α → β} {h : γ → δ} {m : EvalM α} {m' : EvalM β} {f : α → EvalM γ}
    {f' : β → EvalM δ} (hm : m' = r.under g m) (hf : ∀ a, f' (g a) = r.under h (f a)) :
    m' >>= f' = r.under h (m >>= f) := by
  subst hm
  funext n
  have first : (r.under g m >>= f') n = r.under g m n >>= fun x => f' x.1 x.2 := rfl
  have second : r.under h (m >>= f) n =
      match m n >>= fun x => f x.1 x.2 with
      | .ok (c, next) => .ok (h c, next)
      | .error halt => .error (halt.relabel r) := rfl
  rw [first, second, under]
  cases m n with
  | error halt => rfl
  | ok x =>
    obtain ⟨a, next⟩ := x
    exact congrFun (hf a) next

/-- The same for operations on values. -/
theorem outcome_bind {g : α → β} {h : γ → δ} {x : Except EvalError α} {x' : Except EvalError β}
    {f : α → Except EvalError γ} {f' : β → Except EvalError δ} (hx : x' = r.outcome g x)
    (hf : ∀ a, f' (g a) = r.outcome h (f a)) : x' >>= f' = r.outcome h (x >>= f) := by
  subst hx
  cases x with
  | error e => rfl
  | ok a => exact hf a

/-- Relabeling goes into each member of a list. -/
theorem mapM_under {g : β → δ} {h : α → γ} {f : α → EvalM β} {f' : γ → EvalM δ} {xs : List α}
    (hf : ∀ x ∈ xs, f' (h x) = r.under g (f x)) :
    (xs.map h).mapM f' = r.under (List.map g) (xs.mapM f) := by
  induction xs with
  | nil => rfl
  | cons x xs ih =>
    simp only [List.map_cons, List.mapM_cons]
    refine under_bind (hf x List.mem_cons_self) fun a => ?_
    exact under_bind (ih fun y hy => hf y (List.mem_cons_of_mem _ hy)) fun as => rfl

end Relabeling

/-! ## Operators -/

section

variable {r : Relabeling}

/-- What an operation does not take is reported as before. -/
@[simp]
theorem EvalError.mismatch_relabel (op : String) (v : Value) :
    EvalError.mismatch op (v.relabel r) = (EvalError.mismatch op v).relabel r := by
  simp [mismatch, EvalError.relabel]

/-- Operations on words name nothing. -/
theorem negateWord_relabel (n : Int64) : negateWord n = r.outcome id (negateWord n) := by
  unfold negateWord
  split <;> rfl

theorem ArithOp.onWords_relabel (op : ArithOp) (a b : Int64) :
    op.onWords a b = r.outcome id (op.onWords a b) := by
  unfold onWords
  split
  · rfl
  · split <;> rfl

namespace Value

theorem member_relabel (name : String) (v : Value) :
    (v.relabel r).member name = r.outcome (relabel r) (v.member name) := by
  have mismatch := EvalError.mismatch_relabel (r := r) "member access" v
  cases v with
  | null => rfl
  | record n fields =>
    simp only [relabel, relabelFields_eq_map, member, lookup_map]
    cases fields.lookup name <;> rfl
  | _ => exact congrArg Except.error mismatch

theorem asCondition_relabel (v : Value) :
    (v.relabel r).asCondition = r.outcome id v.asCondition := by
  have mismatch := EvalError.mismatch_relabel (r := r) "if" v
  cases v with
  | null => rfl
  | bool b => rfl
  | _ => exact congrArg Except.error mismatch

end Value

theorem UnaryOp.apply_relabel (op : UnaryOp) (v : Value) :
    op.apply (v.relabel r) = r.outcome (Value.relabel r) (op.apply v) := by
  have mismatch := EvalError.mismatch_relabel (r := r) op.symbol v
  cases v with
  | null => cases op <;> rfl
  | bool b =>
    cases op with
    | not => rfl
    | neg => exact congrArg Except.error mismatch
  | int n =>
    cases op with
    | not => exact congrArg Except.error mismatch
    | neg => exact Relabeling.outcome_bind (negateWord_relabel n) fun _ => rfl
  | _ => cases op <;> exact congrArg Except.error mismatch

theorem ArithOp.apply_relabel (op : ArithOp) (a b : Value) :
    op.apply (a.relabel r) (b.relabel r) = r.outcome (Value.relabel r) (op.apply a b) := by
  have mismatch := EvalError.mismatch_relabel (r := r) op.symbol a
  have mismatch' := EvalError.mismatch_relabel (r := r) op.symbol b
  cases a with
  | null => rfl
  | int n =>
    cases b with
    | null => rfl
    | int m => exact Relabeling.outcome_bind (onWords_relabel op n m) fun _ => rfl
    | _ => exact congrArg Except.error mismatch'
  | _ =>
    cases b with
    | null => rfl
    | _ => exact congrArg Except.error mismatch

theorem OrderOp.apply_relabel (op : OrderOp) (a b : Value) :
    op.apply (a.relabel r) (b.relabel r) = r.outcome (Value.relabel r) (op.apply a b) := by
  have mismatch := EvalError.mismatch_relabel (r := r) op.symbol a
  cases a with
  | null => rfl
  | int n =>
    cases b with
    | null => rfl
    | int m => rfl
    | _ => exact congrArg Except.error mismatch
  | str s =>
    cases b with
    | null => rfl
    | str t => rfl
    | _ => exact congrArg Except.error mismatch
  | _ =>
    cases b with
    | null => rfl
    | _ => exact congrArg Except.error mismatch

namespace BinaryOp

theorem decided?_relabel (op : BinaryOp) (v : Value) :
    op.decided? (v.relabel r) = r.outcome (Option.map (Value.relabel r)) (op.decided? v) := by
  have mismatch := EvalError.mismatch_relabel (r := r) op.symbol v
  cases op with
  | and =>
    cases v with
    | bool b => cases b <;> rfl
    | _ => exact congrArg Except.error mismatch
  | or =>
    cases v with
    | bool b => cases b <;> rfl
    | _ => exact congrArg Except.error mismatch
  | coalesce => cases v <;> rfl
  | _ => rfl

theorem apply_relabel (op : BinaryOp) (a b : Value) :
    op.apply (a.relabel r) (b.relabel r) = r.outcome (Value.relabel r) (op.apply a b) := by
  have mismatch := EvalError.mismatch_relabel (r := r) op.symbol b
  cases op with
  | arith op =>
    have result := op.apply_relabel (r := r) a b
    have textLeft := Value.render_relabel (r := r) a
    have textRight := Value.render_relabel (r := r) b
    cases op with
    | add =>
      cases a with
      | str s => exact congrArg (fun t => Except.ok (Value.str (s ++ t))) textRight
      | _ =>
        cases b with
        | str s => exact congrArg (fun t => Except.ok (Value.str (t ++ s))) textLeft
        | _ => exact result
    | _ => exact result
  | order op => exact op.apply_relabel a b
  | eq => exact congrArg (fun c => Except.ok (Value.bool c)) (Value.same_relabel a b)
  | ne => exact congrArg (fun c => Except.ok (Value.bool !c)) (Value.same_relabel a b)
  | coalesce => rfl
  | _ =>
    cases b with
    | bool b => rfl
    | _ => exact congrArg Except.error mismatch

end BinaryOp

/-! ## Calls of values -/

/-- **A meaning of calls that relabeling does not change.** -/
def Apply.Commutes (r : Relabeling) (apply : Apply) : Prop :=
  ∀ f env args, apply (f.relabel r) (env.relabel r) (args.map (Value.relabel r)) =
    r.under (Value.relabel r) (apply f env args)

namespace Apply.Commutes

variable {apply : Apply}

/-- A relabeled value is called as the value is. -/
theorem value (h : apply.Commutes r) (f : Value) (args : List Value) :
    apply.value (f.relabel r) (args.map (Value.relabel r)) =
      r.under (Value.relabel r) (apply.value f args) := by
  have text := congrArg EvalError.notCallable (Value.text_relabel (r := r) f)
  cases f with
  | closure id f captured =>
    simp only [Value.relabel, Value.relabelEnv_eq_relabel, Apply.value]
    exact h f captured args
  | _ => exact congrArg EvalM.fault text

theorem any (h : apply.Commutes r) (predicate : Value) (vs : List Value) :
    apply.any (predicate.relabel r) (vs.map (Value.relabel r)) =
      r.under id (apply.any predicate vs) := by
  induction vs with
  | nil => rfl
  | cons v vs ih =>
    simp only [List.map_cons, Apply.any]
    refine Relabeling.under_bind (h.value predicate [v]) fun verdict => ?_
    have mismatch := EvalError.mismatch_relabel (r := r) Builtin.any.name verdict
    cases verdict with
    | null => exact ih
    | bool b =>
      cases b with
      | false => exact ih
      | true => rfl
    | _ => exact congrArg EvalM.fault mismatch

/-- Functions of one argument that commute with relabeling do so on lists of arguments. -/
private theorem withOne {f : Value → EvalM Value} {args : List Value}
    (hf : ∀ v, f (v.relabel r) = r.under (Value.relabel r) (f v)) :
    Builtin.withOne (args.map (Value.relabel r)) f =
      r.under (Value.relabel r) (Builtin.withOne args f) := by
  match args with
  | [] => rfl
  | [v] => exact hf v
  | v :: w :: rest => simp [Builtin.withOne, EvalError.relabel]

/-- **Built-in functions commute with relabeling.** -/
theorem builtin (h : apply.Commutes r) (func : Builtin) (args : List Value) :
    func.apply apply (args.map (Value.relabel r)) =
      r.under (Value.relabel r) (func.apply apply args) := by
  cases func with
  | toString =>
    refine withOne fun v => ?_
    rw [Value.render_relabel]
    rfl
  | len =>
    refine withOne fun v => ?_
    have mismatch := EvalError.mismatch_relabel (r := r) Builtin.len.name v
    cases v with
    | null => rfl
    | str s => rfl
    | list items => simp [Value.relabel]
    | _ => exact congrArg EvalM.fault mismatch
  | isEmpty =>
    refine withOne fun v => ?_
    have mismatch := EvalError.mismatch_relabel (r := r) Builtin.isEmpty.name v
    cases v with
    | null => rfl
    | list items => simp [Value.relabel]
    | _ => exact congrArg EvalM.fault mismatch
  | any =>
    match args with
    | [] => rfl
    | [v] => cases v <;> rfl
    | v :: w :: x :: rest => cases v <;> simp [Builtin.apply, EvalError.relabel, Value.relabel]
    | [v, predicate] =>
      have mismatch := EvalError.mismatch_relabel (r := r) Builtin.any.name v
      cases v with
      | null => rfl
      | list items =>
        simp only [List.map_cons, List.map_nil, Value.relabel, Value.relabelList_eq_map,
          Builtin.apply]
        exact Relabeling.under_bind (h.any predicate items) fun _ => rfl
      | _ => exact congrArg EvalM.fault mismatch

end Apply.Commutes

/-! ## Evaluation -/

namespace Expr

variable {apply : Apply}

/-- **Evaluation and relabeling can be exchanged**, if calls allow it.  By induction on the
expression, for all environments at once: a nested function is not entered. -/
theorem eval_relabel (h : apply.Commutes r) (env : Env) (e : Expr) :
    (e.relabel r).eval apply (env.relabel r) = r.under (Value.relabel r) (e.eval apply env) := by
  have items : ∀ es : List Expr, (∀ e ∈ es, (e.relabel r).eval apply (env.relabel r) =
      r.under (Value.relabel r) (e.eval apply env)) →
      evalList apply (env.relabel r) (relabelList r es) =
        r.under (List.map (Value.relabel r)) (evalList apply env es) := by
    intro es hes
    rw [evalList_eq_mapM, evalList_eq_mapM, relabelList_eq_map]
    exact Relabeling.mapM_under hes
  induction e with
  | param p =>
    simp only [relabel, eval, Param.id_relabel, Env.lookup_relabel]
    cases env.lookup p.id <;> rfl
  | lit l => simp [relabel, eval]
  | member object name ty ih =>
    simp only [relabel, eval]
    exact Relabeling.under_bind ih fun v => Relabeling.lift_under (v.member_relabel name)
  | unary op operand ty ih =>
    simp only [relabel, eval]
    exact Relabeling.under_bind ih fun v => Relabeling.lift_under (op.apply_relabel v)
  | binary op lhs rhs ty ihl ihr =>
    simp only [relabel, eval]
    refine Relabeling.under_bind ihl fun left => ?_
    have decides := Relabeling.lift_under (op.decided?_relabel (r := r) left)
    refine Relabeling.under_bind decides fun decided => ?_
    cases decided with
    | some v => rfl
    | none =>
      exact Relabeling.under_bind ihr fun right =>
        Relabeling.lift_under (op.apply_relabel left right)
  | call func args ty ih =>
    simp only [relabel, eval]
    exact Relabeling.under_bind (items args ih) fun vs => h.builtin func vs
  | ite cond thenBranch elseBranch ty ihc iht ihe =>
    simp only [relabel, eval]
    refine Relabeling.under_bind ihc fun v => ?_
    refine Relabeling.under_bind (Relabeling.lift_under v.asCondition_relabel) fun test => ?_
    cases test with
    | true => exact iht
    | false => exact ihe
  | construct ty fields ih =>
    simp only [relabel, eval]
    refine Relabeling.under_bind (g := List.map fun f => (f.1, f.2.relabel r)) ?_ fun fs => ?_
    · rw [evalFields_eq_mapM, evalFields_eq_mapM, relabelFields_eq_map]
      exact Relabeling.mapM_under fun f hf => Relabeling.under_bind (ih f hf) fun v => rfl
    · simp [Value.relabel]
  | tuple es ih =>
    simp only [relabel, eval]
    refine Relabeling.under_bind (items es ih) fun vs => ?_
    simp [Value.relabel]
  | list elemTy es ih =>
    simp only [relabel, eval]
    refine Relabeling.under_bind (items es ih) fun vs => ?_
    simp [Value.relabel]
  | lambda params body ih =>
    simp only [relabel, eval]
    refine Relabeling.under_bind Relabeling.under_newClosure.symm fun n => ?_
    simp [Value.relabel, Lambda.relabel]
  | invoke callee args ty ihc ih =>
    simp only [relabel, eval]
    refine Relabeling.under_bind ihc fun f => ?_
    exact Relabeling.under_bind (items args ih) fun vs => h.value f vs

end Expr

/-! ## Calls -/

namespace Lambda

/-- **Calls commute with relabeling**, to whatever depth they may nest. -/
theorem apply_commutes (depth : Nat) : (Lambda.apply depth).Commutes r := by
  induction depth with
  | zero => exact fun _ _ _ => rfl
  | succ depth ih =>
    intro f env args
    simp only [apply, relabel, List.length_map]
    split
    · rw [← Env.relabel_bind]
      exact f.body.eval_relabel ih _
    · rfl

/-- **A relabeled function does what the function does**, and ends with the relabeled value or the
relabeled failure. -/
theorem call_relabel (depth : Nat) (f : Lambda) (args : List Value) :
    (f.relabel r).call depth (args.map (Value.relabel r)) =
      r.under (Value.relabel r) (f.call depth args) :=
  apply_commutes depth f [] args

end Lambda

end

end RowQuery
