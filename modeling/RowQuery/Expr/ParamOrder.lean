import RowQuery.Expr.Basic
import RowQuery.Split.Error

/-!
# The order of parameters

Reordering changes the declared list alone.  References resolve by id, so the body is kept and
each reference reads the argument at its parameter's new position.

* `IsPermutation` — the orders that list each position once; `scanOrder` finds out, in one pass.
* `Lambda.permute` — declare the parameters in a new order: position `i` takes the parameter that
  stood at `order[i]`.
* `Lambda.switch` — exchange the two parameters of a function of two.
-/

namespace RowQuery

/-- Whether `order` lists each position below `arity` once. -/
def IsPermutation (order : List Nat) (arity : Nat) : Prop :=
  order.length = arity ∧ order.Nodup ∧ ∀ i ∈ order, i < arity

/-- **The check of an order**, entry by entry, with a mark for each position that was listed before.
It stops at the first entry that is no position or has its mark. -/
def scanOrder : (listed : List Bool) → List Nat → Bool
  | _, [] => true
  | listed, i :: rest =>
      match listed[i]? with
      | some false => scanOrder (listed.set i true) rest
      | _ => false

/-- A mark leaves the other positions as they were. -/
theorem unmarked_set_iff {listed : List Bool} {i j : Nat} :
    (listed.set i true)[j]? = some false ↔ i ≠ j ∧ listed[j]? = some false := by
  rw [List.getElem?_set]
  by_cases same : i = j
  · rw [if_pos same]
    split <;> simp [same]
  · rw [if_neg same]
    simp [same]

/-- The check passes if the entries are different positions without a mark. -/
theorem scanOrder_eq_true_iff {listed : List Bool} {order : List Nat} :
    scanOrder listed order = true ↔ order.Nodup ∧ ∀ i ∈ order, listed[i]? = some false := by
  induction order generalizing listed with
  | nil => simp [scanOrder]
  | cons i rest ih =>
      rw [scanOrder, List.nodup_cons, List.forall_mem_cons]
      split
      case h_1 unmarked =>
        rw [ih]
        constructor
        · rintro ⟨distinct, free⟩
          have free := fun j hj => unmarked_set_iff.mp (free j hj)
          exact ⟨⟨fun hi => (free i hi).1 rfl, distinct⟩, unmarked, fun j hj => (free j hj).2⟩
        · rintro ⟨⟨fresh, distinct⟩, -, free⟩
          refine ⟨distinct, fun j hj => unmarked_set_iff.mpr ⟨?_, free j hj⟩⟩
          exact fun same => fresh (same ▸ hj)
      case h_2 refused =>
        simp only [Bool.false_eq_true, false_iff]
        exact fun h => refused h.2.1

/-- **The check finds out whether an order is a permutation**, if it has as many entries as there
are positions. -/
theorem isPermutation_iff_scanOrder {order : List Nat} {arity : Nat} :
    order.length = arity ∧ scanOrder (List.replicate arity false) order = true ↔
      IsPermutation order arity := by
  simp [IsPermutation, scanOrder_eq_true_iff, List.getElem?_replicate]

instance (order : List Nat) (arity : Nat) : Decidable (IsPermutation order arity) :=
  decidable_of_decidable_of_iff isPermutation_iff_scanOrder

namespace Lambda

/-- **Reordering the parameters**: position `i` takes the parameter at `order[i]`. -/
def permute (f : Lambda) (order : List Nat) : Except SplitError Lambda :=
  if IsPermutation order f.arity then
    return ⟨order.filterMap fun i => f.params[i]?, f.body⟩
  else throw (.invalidPermutation order f.arity)

/-- **Exchanging two parameters.** -/
def switch (f : Lambda) : Except SplitError Lambda :=
  if f.arity = 2 then f.permute [1, 0] else throw (.arityMismatch 2 f.arity)

end Lambda

end RowQuery
