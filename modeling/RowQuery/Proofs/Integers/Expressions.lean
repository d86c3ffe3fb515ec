import RowQuery.Eval.Basic
import RowQuery.Proofs.Integers.Words
import RowQuery.Proofs.Substitution.Types

/-!
# Integer expressions

Expressions of integer constants, of parameters with integers, of negation and of arithmetic never
wrap.  Each has its value over unbounded integers, or the failure of the first node that has none,
in the order in which the nodes are evaluated.

* `Expr.IntegerIn` — the expressions.
* `Expr.exactValue` — their values over unbounded integers.
* `Expr.failure?` — what fails at a node, once its operands have values.
* `Expr.postorder` — the nodes of an expression, operands first and from left to right.
* `Expr.FirstFailure`, `Expr.Evaluates` — how an evaluation ends.
* `Expr.Evaluates.neg`, `Expr.Evaluates.arith` — nodes whose operands have values.
* **`Expr.eval_evaluates`** — by induction on the expression, one case for each kind of node.
* **`Expr.eval_integer`** — the value, with that of every node inside it, or the first failure.
-/

namespace RowQuery

namespace Expr

/-! ## Expressions and their values -/

/-- **Integer expressions**: constants, parameters that have integers in the environment, and what
is put together of them by negation and arithmetic. -/
inductive IntegerIn (env : Env) : Expr → Prop
  | param {p : Param} {n : Int64} (bound : env.lookup p.id = some (.int n)) :
      IntegerIn env (.param p)
  | lit (n : Int64) : IntegerIn env (.lit (.int n))
  | neg {operand : Expr} (ty : Ty) (h : IntegerIn env operand) :
      IntegerIn env (.unary .neg operand ty)
  | arith {lhs rhs : Expr} (op : ArithOp) (ty : Ty) (hl : IntegerIn env lhs)
      (hr : IntegerIn env rhs) : IntegerIn env (.binary (.arith op) lhs rhs ty)

/-- **The value over unbounded integers.**  Divisions by zero have none. -/
def exactValue (env : Env) : Expr → Option Int
  | .param p =>
      match env.lookup p.id with
      | some (.int n) => some n.toInt
      | _ => none
  | .lit (.int n) => some n.toInt
  | .unary .neg operand _ => return -(← operand.exactValue env)
  | .binary (.arith op) lhs rhs _ => do
      let a ← lhs.exactValue env
      let b ← rhs.exactValue env
      if op.divides ∧ b = 0 then none else some (op.exact a b)
  | _ => none

/-- **What fails at a node**, once its operands have values. -/
def failure? (env : Env) : Expr → Option EvalError
  | .unary .neg operand _ => do
      let a ← operand.exactValue env
      if IsWord (-a) then none else some (.overflow UnaryOp.neg.symbol)
  | .binary (.arith op) lhs rhs _ => do op.failure? (← lhs.exactValue env) (← rhs.exactValue env)
  | _ => none

/-- **The nodes of an expression in the order in which they are evaluated**: operands first, from
left to right. -/
def postorder : Expr → List Expr
  | .unary op operand ty => operand.postorder ++ [.unary op operand ty]
  | .binary op lhs rhs ty => lhs.postorder ++ rhs.postorder ++ [.binary op lhs rhs ty]
  | e => [e]

/-- **A node with a value**: nothing fails at it, and its exact value is a word. -/
def Fits (env : Env) (e : Expr) : Prop :=
  e.failure? env = none ∧ ∃ n, e.exactValue env = some n ∧ IsWord n

/-- All nodes of an integer expression are evaluated. -/
theorem IntegerIn.postorder_perm {env : Env} {e : Expr} (h : IntegerIn env e) :
    e.postorder.Perm e.nodes := by
  induction h with
  | param bound => exact .refl _
  | lit n => exact .refl _
  | neg ty h ih => exact (List.perm_append_singleton _ _).trans (ih.cons _)
  | arith op ty hl hr ihl ihr =>
      exact (List.perm_append_singleton _ _).trans ((ihl.append ihr).cons _)

/-! ## Evaluation -/

/-- **The failure of the first node** that has no value. -/
def FirstFailure (env : Env) (e : Expr) (err : EvalError) : Prop :=
  ∃ before d after, e.postorder = before ++ d :: after ∧ (∀ b ∈ before, b.Fits env) ∧
    d.failure? env = some err

/-- **How the evaluation of an integer expression ends**: with its exact value, where all nodes have
values, or with the first failure. -/
def Evaluates (env : Env) (e : Expr) (c : EvalM Value) : Prop :=
  (∃ w : Int64, c = pure (.int w) ∧ e.exactValue env = some w.toInt ∧
    ∀ d ∈ e.postorder, d.Fits env) ∨
  ∃ err, e.FirstFailure env err ∧ c = EvalM.fault err

section

variable {env : Env} {e part operand lhs rhs : Expr}

/-- What fails first in a part fails first, if what is evaluated before the part has values. -/
theorem FirstFailure.within {err : EvalError} (h : part.FirstFailure env err)
    {earlier later : List Expr} (nodes : e.postorder = earlier ++ part.postorder ++ later)
    (fits : ∀ b ∈ earlier, b.Fits env) : e.FirstFailure env err := by
  obtain ⟨before, d, after, inner, fits', fails⟩ := h
  refine ⟨earlier ++ before, d, after ++ later, by simp [nodes, inner], fun b hb => ?_, fails⟩
  exact (List.mem_append.mp hb).elim (fits b) (fits' b)

/-- A node without operands has a value. -/
theorem Evaluates.leaf {w : Int64} (nodes : e.postorder = [e]) (failure : e.failure? env = none)
    (exact : e.exactValue env = some w.toInt) : Evaluates env e (pure (.int w)) := by
  refine .inl ⟨w, rfl, exact, fun d hd => ?_⟩
  rw [nodes, List.mem_singleton] at hd
  exact hd ▸ ⟨failure, _, exact, isWord_toInt w⟩

/-- **A node whose operands have values** has the exact value, or fails itself. -/
theorem Evaluates.node {operands : List Expr} {n : Int} {r : Except EvalError Int64}
    (nodes : e.postorder = operands ++ [e]) (fits : ∀ d ∈ operands, d.Fits env)
    (exact : e.failure? env = none → e.exactValue env = some n)
    (result : ExactUnless (e.failure? env) n r) :
    Evaluates env e (EvalM.lift (do return .int (← r))) := by
  cases failure : e.failure? env with
  | some err =>
      rw [failure] at result
      obtain rfl : r = .error err := result
      exact .inr ⟨err, ⟨operands, e, [], nodes, fits, failure⟩, rfl⟩
  | none =>
      rw [failure] at result
      obtain ⟨w, rfl, rfl⟩ := result
      refine .inl ⟨w, rfl, exact failure, fun d hd => ?_⟩
      rw [nodes, List.mem_append, List.mem_singleton] at hd
      rcases hd with hd | rfl
      · exact fits d hd
      · exact ⟨failure, _, exact failure, isWord_toInt w⟩

/-- The negation of an operand with a value. -/
theorem Evaluates.neg {w : Int64} (exact : operand.exactValue env = some w.toInt)
    (fits : ∀ d ∈ operand.postorder, d.Fits env) (ty : Ty) :
    Evaluates env (.unary .neg operand ty) (EvalM.lift (UnaryOp.neg.apply (.int w))) := by
  have failure : (unary .neg operand ty).failure? env =
      if IsWord (-w.toInt) then none else some (.overflow UnaryOp.neg.symbol) := by
    rw [failure?, exact]
    rfl
  refine Evaluates.node rfl fits (fun _ => ?_) (failure ▸ negateWord_exactUnless w)
  rw [exactValue, exact]
  rfl

/-- Arithmetic on operands with values. -/
theorem Evaluates.arith {a b : Int64} (left : lhs.exactValue env = some a.toInt)
    (right : rhs.exactValue env = some b.toInt) (fitsLeft : ∀ d ∈ lhs.postorder, d.Fits env)
    (fitsRight : ∀ d ∈ rhs.postorder, d.Fits env) (op : ArithOp) (ty : Ty) :
    Evaluates env (.binary (.arith op) lhs rhs ty)
      (EvalM.lift ((BinaryOp.arith op).apply (.int a) (.int b))) := by
  have failure : (binary (.arith op) lhs rhs ty).failure? env = op.failure? a.toInt b.toInt := by
    rw [failure?, left, right]
    rfl
  have operands : ∀ d ∈ lhs.postorder ++ rhs.postorder, d.Fits env := fun d hd =>
    (List.mem_append.mp hd).elim (fitsLeft d) (fitsRight d)
  have words : (BinaryOp.arith op).apply (.int a) (.int b) =
      do return .int (← op.onWords a b) := by
    cases op <;> rfl
  rw [words]
  refine Evaluates.node rfl operands (fun none => ?_) (failure ▸ op.onWords_exactUnless a b)
  rw [exactValue, left, right]
  exact if_neg (ArithOp.not_byZero (failure ▸ none))

/-- **Integer expressions evaluate** to their exact values or to the first failure. -/
theorem eval_evaluates {apply : Apply} (h : IntegerIn env e) :
    Evaluates env e (e.eval apply env) := by
  induction h with
  | param bound =>
      rw [eval, bound]
      exact .leaf rfl rfl (by rw [exactValue, bound])
  | lit n => exact .leaf rfl rfl rfl
  | neg ty h ih =>
      rw [eval]
      rcases ih with ⟨w, run, exact, fits⟩ | ⟨err, failed, run⟩
      · rw [run]
        exact .neg exact fits ty
      · rw [run]
        exact .inr ⟨err, failed.within rfl (List.forall_mem_nil _), rfl⟩
  | arith op ty hl hr ihl ihr =>
      rw [eval]
      rcases ihl with ⟨a, run, left, fitsLeft⟩ | ⟨err, failed, run⟩
      · rw [run]
        rcases ihr with ⟨b, run', right, fitsRight⟩ | ⟨err, failed, run'⟩
        · rw [run']
          exact .arith left right fitsLeft fitsRight op ty
        · rw [run']
          exact .inr ⟨err, failed.within rfl fitsLeft, rfl⟩
      · rw [run]
        exact .inr ⟨err, failed.within (List.append_assoc ..) (List.forall_mem_nil _), rfl⟩

/-- **Integer expressions never wrap**, whatever their size.  The evaluation ends with the exact
value, and then every expression inside has an exact value that is a word; or it ends with the
failure of the first node in the order of evaluation that has one.  A division by zero fails as such;
other nodes fail by overflow, exactly if the exact result is no word or belongs to a quotient that is
none. -/
theorem eval_integer (h : IntegerIn env e) (apply : Apply) (n : Nat) :
    (∃ w : Int64, (e.eval apply env).run n = .ok (.int w, n) ∧ e.exactValue env = some w.toInt ∧
      ∀ d ∈ e.nodes, d.failure? env = none ∧ ∃ k, d.exactValue env = some k ∧ IsWord k) ∨
    ∃ before d after err, e.postorder = before ++ d :: after ∧
      (∀ b ∈ before, b.failure? env = none ∧ ∃ k, b.exactValue env = some k ∧ IsWord k) ∧
      d.failure? env = some err ∧ (e.eval apply env).run n = .error (.fault err) := by
  rcases eval_evaluates h with ⟨w, run, exact, fits⟩ | ⟨err, ⟨before, d, after, failed⟩, run⟩
  · refine .inl ⟨w, ?_, exact, fun d hd => fits d (h.postorder_perm.mem_iff.mpr hd)⟩
    rw [run]
    rfl
  · refine .inr ⟨before, d, after, err, failed.1, failed.2.1, failed.2.2, ?_⟩
    rw [run]
    rfl

/-- `-(x % y) + (7 / (y + 1) + (x - 1))`. -/
def leastWords : Expr :=
  let x : Expr := .param ⟨⟨100⟩, "x", .int⟩
  let y : Expr := .param ⟨⟨101⟩, "y", .int⟩
  .binaryOf (.arith .add) (.unaryOf .neg (.binaryOf (.arith .rem) x y))
    (.binaryOf (.arith .add)
      (.binaryOf (.arith .div) (.lit (.int 7)) (.binaryOf (.arith .add) y (.lit (.int 1))))
      (.binaryOf (.arith .sub) x (.lit (.int 1))))

theorem leastWords_integerIn {env : Env} {a b : Int64} (ha : env.lookup ⟨100⟩ = some (.int a))
    (hb : env.lookup ⟨101⟩ = some (.int b)) : IntegerIn env leastWords := by
  have x : IntegerIn env (.param ⟨⟨100⟩, "x", .int⟩) := .param ha
  have y : IntegerIn env (.param ⟨⟨101⟩, "y", .int⟩) := .param hb
  exact .arith _ _ (.neg _ (.arith _ _ x y))
    (.arith _ _ (.arith _ _ (.lit 7) (.arith _ _ y (.lit 1))) (.arith _ _ x (.lit 1)))

/-- With the least word for `x` the difference overflows.  With `-1` for `y` the remainder overflows
before it, and before the division by zero; with `1` the difference is the first to fail. -/
theorem eval_integer_leastWords :
    let env (y : Int64) : Env := [(⟨100⟩, .int Int64.minValue), (⟨101⟩, .int y)]
    (∀ y, IntegerIn (env y) leastWords) ∧
    (∃ before d after, leastWords.postorder = before ++ d :: after ∧
      (∀ b ∈ before, b.failure? (env (-1)) = none) ∧
      d.failure? (env (-1)) = some (.overflow "%")) ∧
    ∃ before d after, leastWords.postorder = before ++ d :: after ∧
      (∀ b ∈ before, b.failure? (env 1) = none) ∧ d.failure? (env 1) = some (.overflow "-") := by
  intro env
  have integer : ∀ y, IntegerIn (env y) leastWords := fun y => leastWords_integerIn rfl rfl
  have first : ∀ y err, (leastWords.eval (Lambda.apply 0) (env y)).run 0 = .error (.fault err) →
      ∃ before d after, leastWords.postorder = before ++ d :: after ∧
        (∀ b ∈ before, b.failure? (env y) = none) ∧ d.failure? (env y) = some err := by
    intro y err failed
    rcases eval_integer (integer y) (Lambda.apply 0) 0 with ⟨w, run, -⟩ | h
    · rw [failed] at run
      cases run
    · obtain ⟨before, d, after, err', nodes, fits, fails, run⟩ := h
      rw [failed] at run
      cases run
      exact ⟨before, d, after, nodes, fun b hb => (fits b hb).1, fails⟩
  exact ⟨integer, first _ _ rfl, first _ _ rfl⟩

end

end Expr

end RowQuery
