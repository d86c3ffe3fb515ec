import Mathlib.Algebra.Order.Group.Int
import RowQuery.Eval.Word

/-!
# When arithmetic on words has a result

An operation on words has the result that it has over unbounded integers, or none.  It has none if
the exact result is no word, if the divisor is zero, and in one case more: a remainder belongs to a
quotient, and the quotient of the least word by `-1` is no word.

* `IsWord` — the integers that words hold.
* `isWord_tdiv_iff` — the only quotient of words that is no word.
* `ArithOp.failure?` — what keeps an operator from having a result.
* **`ArithOp.onWords_exactUnless`**, `negateWord_exactUnless` — operators on words fail exactly so,
  and have the exact result otherwise.
-/

namespace RowQuery

/-! ## Words -/

/-- **The integers that words hold.** -/
def IsWord (n : Int) : Prop := -2 ^ 63 ≤ n ∧ n < 2 ^ 63

instance (n : Int) : Decidable (IsWord n) := inferInstanceAs (Decidable (_ ∧ _))

theorem isWord_toInt (w : Int64) : IsWord w.toInt := ⟨Int64.le_toInt w, Int64.toInt_lt w⟩

/-- **There is a word for an integer** exactly if words hold it. -/
theorem word?_eq_none_iff {n : Int} : word? n = none ↔ ¬IsWord n := by
  unfold word?
  rw [Int64.toInt_minValue, Int64.toInt_maxValue]
  split
  case isTrue range =>
    simp only [reduceCtorEq, false_iff, not_not]
    exact ⟨range.1, by omega⟩
  case isFalse range =>
    simp only [true_iff]
    exact fun word => range ⟨word.1, by have := word.2; omega⟩

theorem exists_word {n : Int} (h : IsWord n) : ∃ w, word? n = some w ∧ w.toInt = n := by
  cases found : word? n with
  | none => exact absurd h (word?_eq_none_iff.mp found)
  | some w => exact ⟨w, rfl, word?_eq_some_iff.mp found⟩

/-! ## Quotients -/

/-- **The only quotient of words that is no word** is that of the least one by `-1`. -/
theorem isWord_tdiv_iff {a b : Int} (ha : IsWord a) (hb : b ≠ 0) :
    IsWord (a.tdiv b) ↔ ¬(a = -2 ^ 63 ∧ b = -1) := by
  obtain ⟨low, high⟩ := ha
  unfold IsWord
  by_cases minus : b = -1
  · subst minus
    rw [Int.tdiv_neg, Int.tdiv_one]
    omega
  · have smaller : (a.tdiv b).natAbs ≤ a.natAbs := Int.natAbs_tdiv_le_natAbs a b
    have least : a = -2 ^ 63 → a.tdiv b < 2 ^ 63 := by
      intro ha
      by_cases one : b = 1
      · rw [one, Int.tdiv_one]
        omega
      · -- the divisor is neither 1 nor -1, so the quotient is at most half as large
        have half : (a.tdiv b).natAbs ≤ a.natAbs / 2 := by
          rw [Int.natAbs_tdiv]
          exact Nat.div_le_div_left (by omega) (by decide)
        omega
    omega

/-! ## Operators -/

/-- **What keeps an operator from having a result**: a divisor that is zero, a result that is no
word, or the remainder that belongs to a quotient that is no word. -/
def ArithOp.failure? (op : ArithOp) (a b : Int) : Option EvalError :=
  if op.divides ∧ b = 0 then some .divisionByZero
  else if ¬IsWord (op.exact a b) ∨ op = .rem ∧ a = -2 ^ 63 ∧ b = -1 then some (.overflow op.symbol)
  else none

/-- An operator that does not fail does not divide by zero. -/
theorem ArithOp.not_byZero {op : ArithOp} {a b : Int} (h : op.failure? a b = none) :
    ¬(op.divides ∧ b = 0) := by
  intro byZero
  rw [failure?, if_pos byZero] at h
  cases h

/-- What an operation on words makes of operands with a given failure and a given exact result. -/
def ExactUnless (failure : Option EvalError) (exact : Int) (r : Except EvalError Int64) : Prop :=
  match failure with
  | some e => r = .error e
  | none => ∃ w, r = .ok w ∧ w.toInt = exact

/-- **Negation** fails on the least word alone. -/
theorem negateWord_exactUnless (a : Int64) :
    ExactUnless (if IsWord (-a.toInt) then none else some (.overflow UnaryOp.neg.symbol)) (-a.toInt)
      (negateWord a) := by
  unfold negateWord
  by_cases word : IsWord (-a.toInt)
  · obtain ⟨w, found, exact⟩ := exists_word word
    rw [if_pos word, found]
    exact ⟨w, rfl, exact⟩
  · rw [if_neg word, word?_eq_none_iff.mpr word]
    rfl

/-- **Operators on words** have the exact result, or fail for the stated reason. -/
theorem ArithOp.onWords_exactUnless (op : ArithOp) (a b : Int64) :
    ExactUnless (op.failure? a.toInt b.toInt) (op.exact a.toInt b.toInt) (op.onWords a b) := by
  have zero : b = 0 ↔ b.toInt = 0 := by rw [← Int64.toInt_inj]; rfl
  unfold failure? onWords
  simp only [zero]
  by_cases byZero : op.divides ∧ b.toInt = 0
  · simp only [if_pos byZero]
    rfl
  · simp only [if_neg byZero]
    have quotient (h : op = .rem) :
        word? (a.toInt.tdiv b.toInt) = none ↔ a.toInt = -2 ^ 63 ∧ b.toInt = -1 := by
      have nonzero : b.toInt ≠ 0 := fun h' => byZero ⟨by rw [h]; rfl, h'⟩
      rw [word?_eq_none_iff, isWord_tdiv_iff (isWord_toInt a) nonzero, not_not]
    by_cases fails : ¬IsWord (op.exact a.toInt b.toInt) ∨
        op = .rem ∧ a.toInt = -2 ^ 63 ∧ b.toInt = -1
    · rw [if_pos fails]
      split
      case h_1 => rfl
      case h_2 w found rest =>
        rcases fails with outside | ⟨rem, least⟩
        · exact absurd (word?_eq_some_iff.mp found ▸ isWord_toInt w) outside
        · exact (rest rem ((quotient rem).mpr least)).elim
      case h_3 => rfl
    · rw [if_neg fails]
      obtain ⟨word, ordinary⟩ := not_or.mp fails
      split
      case h_1 none => exact absurd ⟨rfl, (quotient rfl).mp none⟩ ordinary
      case h_2 w found _ => exact ⟨w, rfl, word?_eq_some_iff.mp found⟩
      case h_3 none _ => exact absurd (word?_eq_none_iff.mp none) word

end RowQuery
