import RowQuery.Eval.Operators

/-!
# Evaluation

Expressions are evaluated in an environment, left to right.  Each evaluation of a nested function
makes a new closure, so evaluation threads the number of the next one.

* `EvalM` — a computation that numbers closures and may halt without a value.
* `Expr.eval` — the value of an expression, by recursion on it.  What it means to call a closure
  is a parameter.
* `Lambda.apply` — calling a function: evaluate the body with the arguments bound.  Calls nest at
  most `depth` deep; an evaluation that would go deeper halts with `Halt.depth`.
* `Lambda.call` — calling a function that captured nothing.

Only calls spend depth, so expressions without calls need none, however large they are.
-/

namespace RowQuery

/-! ## Computations -/

/-- **Computations of evaluation**: the state is the number of the next closure. -/
abbrev EvalM := StateT Nat (Except Halt)

namespace EvalM

/-- Ending without a value. -/
def fault {α : Type} (e : EvalError) : EvalM α := throw (.fault e)

/-- An operation on values as a computation. -/
def lift {α : Type} (r : Except EvalError α) : EvalM α :=
  match r with
  | .ok a => pure a
  | .error e => fault e

instance : MonadLift (Except EvalError) EvalM := ⟨lift⟩

/-- The number of a new closure. -/
def newClosure : EvalM Nat := modifyGet fun next => (next, next + 1)

end EvalM

/-- How a function with captured values is applied to arguments. -/
abbrev Apply := Lambda → Env → List Value → EvalM Value

/-- Calling a value; only closures can be called. -/
def Apply.value (apply : Apply) : Value → List Value → EvalM Value
  | .closure _ f captured, args => apply f captured args
  | v, _ => .fault (.notCallable v.text)

/-- Whether a predicate holds of some member, tested from the first member on; the absent value
counts as failing. -/
def Apply.any (apply : Apply) (predicate : Value) : List Value → EvalM Bool
  | [] => pure false
  | v :: vs => do
      match ← apply.value predicate [v] with
      | .bool true => pure true
      | .bool false => apply.any predicate vs
      | .null => apply.any predicate vs
      | other => .fault (.mismatch Builtin.any.name other)

/-- A function of one argument, or the failure of one given more or fewer. -/
def Builtin.withOne (args : List Value) (f : Value → EvalM Value) : EvalM Value :=
  match args with
  | [v] => f v
  | _ => .fault (.arity 1 args.length)

/-- **Built-in functions.** -/
def Builtin.apply (apply : Apply) (func : Builtin) (args : List Value) : EvalM Value :=
  match func with
  | .toString => withOne args fun v => pure (.str v.render)
  | .len => withOne args fun
      | .str s => pure (.int (.ofNat s.length))
      | .list items => pure (.int (.ofNat items.length))
      | .null => pure .null
      | v => .fault (.mismatch func.name v)
  | .isEmpty => withOne args fun
      | .list items => pure (.bool items.isEmpty)
      | .null => pure (.bool true)
      | v => .fault (.mismatch func.name v)
  | .any =>
      match args with
      | [.list items, predicate] => return .bool (← apply.any predicate items)
      | [.null, _] => pure (.bool false)
      | [v, _] => .fault (.mismatch func.name v)
      | _ => .fault (.arity 2 args.length)

/-! ## Expressions -/

namespace Expr

mutual

/-- **The value of an expression.** -/
def eval (apply : Apply) (env : Env) : Expr → EvalM Value
  | .param p =>
      match env.lookup p.id with
      | some v => pure v
      | none => .fault (.unboundParam p.name)
  | .lit l => pure (.ofLiteral l)
  | .member object name _ => do (← object.eval apply env).member name
  | .unary op operand _ => do op.apply (← operand.eval apply env)
  | .binary op lhs rhs _ => do
      let left ← lhs.eval apply env
      match ← op.decided? left with
      | some v => pure v
      | none => op.apply left (← rhs.eval apply env)
  | .call func args _ => do func.apply apply (← evalList apply env args)
  | .ite cond thenBranch elseBranch _ => do
      if ← (← cond.eval apply env).asCondition then thenBranch.eval apply env
      else elseBranch.eval apply env
  | .construct ty fields =>
      return .record (ty.conName?.getD "") (← evalFields apply env fields)
  | .tuple items => return .tuple (← evalList apply env items)
  | .list _ items => return .list (← evalList apply env items)
  | .lambda params body => return .closure (← EvalM.newClosure) ⟨params, body⟩ env
  | .invoke callee args _ => do
      let f ← callee.eval apply env
      apply.value f (← evalList apply env args)

/-- The values of a list of expressions, from left to right. -/
def evalList (apply : Apply) (env : Env) : List Expr → EvalM (List Value)
  | [] => pure []
  | e :: es => return (← e.eval apply env) :: (← evalList apply env es)

/-- The values of fields, from left to right. -/
def evalFields (apply : Apply) (env : Env) :
    List (String × Expr) → EvalM (List (String × Value))
  | [] => pure []
  | (name, e) :: fs => return (name, ← e.eval apply env) :: (← evalFields apply env fs)

end

/-- A list is evaluated member by member. -/
theorem evalList_eq_mapM (apply : Apply) (env : Env) (es : List Expr) :
    evalList apply env es = es.mapM (eval apply env) := by
  induction es with
  | nil => rfl
  | cons e es ih => simp [evalList, ih]

/-- Fields are evaluated one by one, each under its name. -/
theorem evalFields_eq_mapM (apply : Apply) (env : Env) (fs : List (String × Expr)) :
    evalFields apply env fs =
      fs.mapM fun f => do return (f.1, ← f.2.eval apply env) := by
  induction fs with
  | nil => rfl
  | cons f fs ih => simp [evalFields, ih]

end Expr

/-! ## Calls -/

/-- Binding arguments to declared parameters; of two parameters with one id the later argument
counts. -/
def Env.bind (env : Env) (params : List Param) (args : List Value) : Env :=
  ((params.map (·.id)).zip args).reverse ++ env

namespace Lambda

/-- **Applying a function** to as many arguments as it has parameters. -/
def apply : (depth : Nat) → Apply
  | 0, _, _, _ => throw .depth
  | depth + 1, f, captured, args =>
      if f.params.length = args.length then
        f.body.eval (apply depth) (captured.bind f.params args)
      else .fault (.arity f.params.length args.length)

/-- **Calling a function** that captured nothing. -/
def call (depth : Nat) (f : Lambda) (args : List Value) : EvalM Value := f.apply depth [] args

end Lambda

end RowQuery
