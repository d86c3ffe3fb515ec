import RowQuery.Eval.Error

/-!
# Arithmetic on machine words

Integers of the language are 64-bit words.  Arithmetic is exact: a result that is no word is a
failure and never wraps.

* `word?` — the word that holds an integer.
* `ArithOp.exact` — the operators over unbounded integers; division truncates toward zero, and a
  remainder has the sign of the dividend.
* `ArithOp.onWords` — the operators on words.
* `word?_eq_some_iff` — a word holds exactly its own integer.
-/

namespace RowQuery

/-- **The word that holds an integer**, if one does. -/
def word? (n : Int) : Option Int64 :=
  if Int64.minValue.toInt ≤ n ∧ n ≤ Int64.maxValue.toInt then some (Int64.ofInt n) else none

/-- A word holds an integer exactly if it reads as that integer. -/
theorem word?_eq_some_iff {n : Int} {w : Int64} : word? n = some w ↔ w.toInt = n := by
  constructor
  · intro h
    unfold word? at h
    split at h
    case isTrue range =>
      cases h
      exact Int64.toInt_ofInt_of_le (by simpa using range.1)
        (by have := range.2; rw [Int64.toInt_maxValue] at this; omega)
    case isFalse => cases h
  · rintro rfl
    have low : Int64.minValue.toInt ≤ w.toInt := by
      rw [Int64.toInt_minValue]; exact Int64.le_toInt w
    have high : w.toInt ≤ Int64.maxValue.toInt := by
      rw [Int64.toInt_maxValue]; have := Int64.toInt_lt w; omega
    rw [word?, if_pos ⟨low, high⟩, Int64.ofInt_toInt]

namespace ArithOp

/-- **The operator over unbounded integers.** -/
def exact : ArithOp → Int → Int → Int
  | .add, a, b => a + b
  | .sub, a, b => a - b
  | .mul, a, b => a * b
  | .div, a, b => a.tdiv b
  | .rem, a, b => a.tmod b

/-- Whether the operator divides. -/
def divides : ArithOp → Bool
  | .div | .rem => true
  | _ => false

/-- **The operator on words.**  A division by zero has no result.  Any other result is the exact
one; it has to be a word, and so has the quotient that belongs to a remainder. -/
def onWords (op : ArithOp) (a b : Int64) : Except EvalError Int64 :=
  if op.divides ∧ b = 0 then throw .divisionByZero
  else
    match op, word? (a.toInt.tdiv b.toInt), word? (op.exact a.toInt b.toInt) with
    | .rem, none, _ => throw (.overflow op.symbol)
    | _, _, some w => return w
    | _, _, none => throw (.overflow op.symbol)

end ArithOp

/-- The negation of a word. -/
def negateWord (a : Int64) : Except EvalError Int64 :=
  match word? (-a.toInt) with
  | some w => return w
  | none => throw (.overflow UnaryOp.neg.symbol)

end RowQuery
