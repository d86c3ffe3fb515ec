import Mathlib.Data.List.Perm.Basic
import Mathlib.Data.List.Nodup
import RowQuery.Expr.ParamOrder
import RowQuery.Proofs.Computations

/-!
# Orders of parameters

An order is a list of positions.  The ones that are accepted are the rearrangements of all
positions, and they act on functions: one order after another is one order again, and every order
can be undone.

* `membersAt` — the members of a list at the positions of another one.  With an order for the list
  it is the order that takes position `i` to the member of the first at the `i`-th member of the
  second.
* **`isPermutation_iff_perm`** — the accepted orders: different positions below the arity, as many
  as there are, are all of them.
* `inverseOrder` — the order that undoes an order.
* `Lambda.permute_eq_ok_iff`, `Lambda.permute_bind` — what a reordered function is, and what becomes
  of it in a second order.
* **`Lambda.permutations_act`** — acceptance, composition and inverses, and the exchange of two
  parameters.
-/

namespace RowQuery

/-! ## Members at positions -/

/-- **The members at the listed positions**, in the listed order. -/
def membersAt {α : Type} (xs : List α) (order : List Nat) : List α :=
  order.filterMap fun i => xs[i]?

section

variable {α β : Type} {xs : List α} {order : List Nat} {n : Nat}

/-- A position below the length has a member. -/
theorem membersAt_cons {i : Nat} (h : i < xs.length) :
    membersAt xs (i :: order) = xs[i] :: membersAt xs order := by
  rw [membersAt, List.filterMap_cons, List.getElem?_eq_getElem h]
  rfl

/-- **The member at position `k`** is the one at the position that the order has there. -/
theorem getElem?_membersAt (h : ∀ i ∈ order, i < xs.length) (k : Nat) :
    (membersAt xs order)[k]? = order[k]?.bind fun i => xs[i]? := by
  induction order generalizing k with
  | nil => simp [membersAt]
  | cons i rest ih =>
      obtain ⟨first, others⟩ := List.forall_mem_cons.mp h
      rw [membersAt_cons first]
      cases k with
      | zero => simp [first]
      | succ k => simpa using ih others k

theorem length_membersAt (h : ∀ i ∈ order, i < xs.length) :
    (membersAt xs order).length = order.length := by
  induction order with
  | nil => rfl
  | cons i rest ih =>
      obtain ⟨first, others⟩ := List.forall_mem_cons.mp h
      rw [membersAt_cons first, List.length_cons, List.length_cons, ih others]

theorem map_membersAt (f : α → β) (xs : List α) (order : List Nat) :
    (membersAt xs order).map f = membersAt (xs.map f) order := by
  simp [membersAt, List.map_filterMap]

/-- All positions in their order give the list. -/
theorem membersAt_range (xs : List α) : membersAt xs (List.range xs.length) = xs := by
  have inside : ∀ i ∈ List.range xs.length, i < xs.length := fun i hi => List.mem_range.mp hi
  refine List.ext_getElem? fun k => ?_
  rw [getElem?_membersAt inside]
  by_cases hk : k < xs.length
  · simp [hk]
  · simp [hk]

/-- **Members of members**: positions are looked up first, and then what stands there. -/
theorem membersAt_membersAt {p : List Nat} (h : ∀ i ∈ p, i < xs.length) (q : List Nat) :
    membersAt (membersAt xs p) q = membersAt xs (membersAt p q) := by
  have looked : (fun k => (membersAt xs p)[k]?) = fun k => p[k]?.bind fun i => xs[i]? :=
    funext fun k => getElem?_membersAt h k
  rw [membersAt, looked, ← List.filterMap_filterMap]
  rfl

end

/-! ## Orders -/

section

variable {α : Type} {p q order : List Nat} {n : Nat}

/-- **An order that is accepted lists all positions.**  It has no room for a repetition. -/
theorem isPermutation_iff_perm : IsPermutation order n ↔ order.Perm (List.range n) := by
  constructor
  · rintro ⟨length, nodup, below⟩
    have positions : order ⊆ List.range n := fun i hi => List.mem_range.mpr (below i hi)
    refine (List.subperm_of_subset nodup positions).perm_of_length_le ?_
    exact Nat.le_of_eq (List.length_range.trans length.symm)
  · intro perm
    refine ⟨?_, perm.nodup_iff.mpr List.nodup_range, fun i hi => ?_⟩
    · rw [perm.length_eq, List.length_range]
    · exact List.mem_range.mp (perm.subset hi)

/-- Reordered members are the same members. -/
theorem IsPermutation.membersAt_perm {xs : List α} (h : IsPermutation order xs.length) :
    (membersAt xs order).Perm xs := by
  have perm := (isPermutation_iff_perm.mp h).filterMap fun i => xs[i]?
  rw [← membersAt, ← membersAt, membersAt_range] at perm
  exact perm

/-- **One order after another** is an order. -/
theorem IsPermutation.membersAt (hp : IsPermutation p n) (hq : IsPermutation q n) :
    IsPermutation (membersAt p q) n := by
  have same : (RowQuery.membersAt p q).Perm p := IsPermutation.membersAt_perm (hp.1.symm ▸ hq)
  exact isPermutation_iff_perm.mpr (same.trans (isPermutation_iff_perm.mp hp))

/-- **The order that undoes an order**: position `i` takes the position at which the order has
`i`. -/
def inverseOrder (order : List Nat) : List Nat :=
  (List.range order.length).map fun i => order.idxOf i

theorem getElem?_inverseOrder {i : Nat} (h : i < order.length) :
    (inverseOrder order)[i]? = some (order.idxOf i) := by
  simp [inverseOrder, h]

/-- It is an order. -/
theorem IsPermutation.inverseOrder (h : IsPermutation p n) :
    IsPermutation (inverseOrder p) n := by
  obtain ⟨length, nodup, below⟩ := h
  have all : ∀ i < n, i ∈ p := fun i hi =>
    (isPermutation_iff_perm.mp ⟨length, nodup, below⟩).mem_iff.mpr (List.mem_range.mpr hi)
  refine ⟨by simp [RowQuery.inverseOrder, length], ?_, ?_⟩
  · refine List.Nodup.map_on (fun i hi j _ same => ?_) List.nodup_range
    exact (List.idxOf_inj (all i (length ▸ List.mem_range.mp hi))).mp same
  · intro k hk
    obtain ⟨i, hi, rfl⟩ := List.mem_map.mp hk
    rw [← length]
    exact List.idxOf_lt_length_of_mem (all i (length ▸ List.mem_range.mp hi))

/-- **Where an order has a position**, the inverse order says. -/
theorem IsPermutation.getElem?_inverseOrder_bind (h : IsPermutation p n) {i : Nat} (hi : i < n) :
    (RowQuery.inverseOrder p)[i]?.bind (fun k => p[k]?) = some i := by
  have present : i ∈ p := (isPermutation_iff_perm.mp h).mem_iff.mpr (List.mem_range.mpr hi)
  rw [getElem?_inverseOrder (h.1.symm ▸ hi), Option.bind_some,
    List.getElem?_eq_getElem (List.idxOf_lt_length_of_mem present), List.getElem_idxOf]

/-- **Undoing an order**: both together leave all positions in their order. -/
theorem IsPermutation.membersAt_inverseOrder (h : IsPermutation p n) :
    RowQuery.membersAt p (RowQuery.inverseOrder p) = List.range n := by
  have inverse := h.inverseOrder
  refine List.ext_getElem? fun i => ?_
  rw [getElem?_membersAt fun k hk => h.1.symm ▸ inverse.2.2 k hk]
  by_cases hi : i < n
  · rw [h.getElem?_inverseOrder_bind hi]
    simp [hi]
  · rw [List.getElem?_eq_none (by rw [inverse.1]; omega)]
    simp [hi]

end

/-! ## Functions -/

namespace Lambda

variable {f g : Lambda} {p q order : List Nat}

/-- **A reordered function** has the parameters at the listed positions. -/
theorem permute_eq_ok_iff :
    f.permute order = .ok g ↔
      IsPermutation order f.arity ∧ g = ⟨membersAt f.params order, f.body⟩ := by
  unfold permute
  split
  case isTrue accepted =>
    constructor
    · rintro ⟨⟩
      exact ⟨accepted, rfl⟩
    · rintro ⟨-, rfl⟩
      rfl
  case isFalse refused =>
    constructor
    · rintro ⟨⟩
    · exact fun h => absurd h.1 refused

theorem permute_of_isPermutation (h : IsPermutation order f.arity) :
    f.permute order = .ok ⟨membersAt f.params order, f.body⟩ :=
  permute_eq_ok_iff.mpr ⟨h, rfl⟩

theorem permute_of_not_isPermutation (h : ¬IsPermutation order f.arity) :
    f.permute order = .error (.invalidPermutation order f.arity) := by
  rw [permute, if_neg h]
  rfl

/-- All positions in their order leave the function as it is. -/
theorem permute_range (f : Lambda) : f.permute (List.range f.arity) = .ok f := by
  rw [permute_of_isPermutation (isPermutation_iff_perm.mpr (.refl _)), arity, membersAt_range]

/-- **One order after another** is one order. -/
theorem permute_bind (hp : IsPermutation p f.arity) (hq : IsPermutation q f.arity) :
    (f.permute p >>= fun g => g.permute q) = f.permute (membersAt p q) := by
  have arity : Lambda.arity ⟨membersAt f.params p, f.body⟩ = f.arity := by
    rw [Lambda.arity, length_membersAt hp.2.2, hp.1]
  rw [permute_of_isPermutation hp, permute_of_isPermutation (hp.membersAt hq)]
  refine (permute_of_isPermutation (arity.symm ▸ hq)).trans ?_
  rw [membersAt_membersAt hp.2.2]

/-- The exchange of two parameters is the order of the second before the first. -/
theorem switch_of_arity (h : f.arity = 2) : f.switch = f.permute [1, 0] := if_pos h

theorem switch_of_arity_ne (h : f.arity ≠ 2) : f.switch = .error (.arityMismatch 2 f.arity) := by
  rw [switch, if_neg h]
  rfl

theorem isPermutation_switch (h : f.arity = 2) : IsPermutation [1, 0] f.arity := by
  rw [h]
  decide

/-- **Exchanging parameters** exchanges the two parameters, and needs two. -/
theorem switch_eq_ok_iff :
    f.switch = .ok g ↔ ∃ p q, f.params = [p, q] ∧ g = ⟨[q, p], f.body⟩ := by
  constructor
  · intro h
    by_cases two : f.arity = 2
    · rw [switch_of_arity two] at h
      obtain ⟨p, q, params⟩ := List.length_eq_two.mp two
      obtain ⟨-, rfl⟩ := permute_eq_ok_iff.mp h
      exact ⟨p, q, params, by rw [params]; rfl⟩
    · rw [switch_of_arity_ne two] at h
      cases h
  · rintro ⟨p, q, params, rfl⟩
    have two : f.arity = 2 := by rw [arity, params]; rfl
    rw [switch_of_arity two, permute_of_isPermutation (isPermutation_switch two), params]
    rfl

/-- **Exchanging twice** gives the function back. -/
theorem switch_bind_switch (h : f.arity = 2) : (f.switch >>= switch) = .ok f := by
  obtain ⟨p, q, params⟩ := List.length_eq_two.mp h
  have once := switch_eq_ok_iff.mpr ⟨p, q, params, rfl⟩
  have twice : switch ⟨[q, p], f.body⟩ = .ok ⟨[p, q], f.body⟩ :=
    switch_eq_ok_iff.mpr ⟨q, p, rfl, rfl⟩
  rw [once]
  refine twice.trans ?_
  rw [← params]

/-- **Orders act on functions.**  Accepted are the rearrangements of all positions, and position `i`
of the result has the parameter at `order[i]`; other lists are reported with the arity.  One order
after another is the order that takes `i` to `p[q[i]]`, and the inverse of an order undoes it.  Two
parameters can be exchanged, with nothing changed by doing it twice; with more or fewer parameters
the exchange reports their number. -/
theorem permutations_act (f : Lambda) :
    (∀ order, (∃ g, f.permute order = .ok g) ↔ order.Perm (List.range f.arity)) ∧
    (∀ order, ¬order.Perm (List.range f.arity) →
      f.permute order = .error (.invalidPermutation order f.arity)) ∧
    (∀ order g, f.permute order = .ok g →
      g.body = f.body ∧ ∀ i : Nat, g.params[i]? = order[i]?.bind fun k => f.params[k]?) ∧
    (∀ p q r : List Nat, p.Perm (List.range f.arity) → q.Perm (List.range f.arity) →
      (∀ i : Nat, r[i]? = q[i]?.bind fun k => p[k]?) →
      (f.permute p >>= fun g => g.permute q) = f.permute r) ∧
    (∀ p : List Nat, p.Perm (List.range f.arity) →
      (inverseOrder p).Perm (List.range f.arity) ∧
      (∀ i < f.arity, (inverseOrder p)[i]?.bind (fun k => p[k]?) = some i) ∧
      (f.permute p >>= fun g => g.permute (inverseOrder p)) = .ok f) ∧
    ((∃ g, f.switch = .ok g) ↔ f.arity = 2) ∧
    (f.arity ≠ 2 → f.switch = .error (.arityMismatch 2 f.arity)) ∧
    (f.arity = 2 → (f.switch >>= switch) = .ok f) := by
  simp only [← isPermutation_iff_perm]
  refine ⟨fun order => ?_, fun order => permute_of_not_isPermutation, ?_, ?_, ?_, ?_, ?_,
    switch_bind_switch⟩
  · exact ⟨fun ⟨g, h⟩ => (permute_eq_ok_iff.mp h).1, fun h => ⟨_, permute_of_isPermutation h⟩⟩
  · intro order g h
    obtain ⟨accepted, rfl⟩ := permute_eq_ok_iff.mp h
    exact ⟨rfl, getElem?_membersAt accepted.2.2⟩
  · intro p q r hp hq composed
    have order : r = membersAt p q := by
      refine List.ext_getElem? fun i => ?_
      rw [composed, getElem?_membersAt fun k hk => hp.1.symm ▸ hq.2.2 k hk]
    rw [order, permute_bind hp hq]
  · intro p hp
    refine ⟨hp.inverseOrder, fun i hi => hp.getElem?_inverseOrder_bind hi, ?_⟩
    rw [permute_bind hp hp.inverseOrder, hp.membersAt_inverseOrder, permute_range]
  · constructor
    · rintro ⟨g, h⟩
      obtain ⟨p, q, params, -⟩ := switch_eq_ok_iff.mp h
      rw [arity, params]
      rfl
    · intro h
      obtain ⟨p, q, params⟩ := List.length_eq_two.mp h
      exact ⟨_, switch_eq_ok_iff.mpr ⟨p, q, params, rfl⟩⟩
  · exact switch_of_arity_ne

/-- `|a, b, c| (a, b, c)`. -/
def triple : Lambda :=
  let a : Param := ⟨⟨100⟩, "a", .int⟩
  let b : Param := ⟨⟨101⟩, "b", .string⟩
  let c : Param := ⟨⟨102⟩, "c", .bool⟩
  ⟨[a, b, c], .tuple [.param a, .param b, .param c]⟩

/-- An order that is not its own inverse, followed by another one; a list with a repetition; and a
function of two parameters. -/
theorem permutations_act_triple :
    let c : Lambda := ⟨triple.params.take 2, triple.body⟩
    ([2, 0, 1].Perm (List.range triple.arity) ∧ [1, 0, 2].Perm (List.range triple.arity) ∧
      (triple.permute [2, 0, 1] >>= fun g => g.permute [1, 0, 2]) = triple.permute [0, 2, 1] ∧
      (triple.permute [2, 0, 1] >>= fun g => g.permute [1, 2, 0]) = .ok triple) ∧
    (¬[0, 0, 1].Perm (List.range triple.arity) ∧
      triple.permute [0, 0, 1] = .error (.invalidPermutation [0, 0, 1] 3)) ∧
    (triple.arity ≠ 2 ∧ triple.switch = .error (.arityMismatch 2 3)) ∧
    c.arity = 2 ∧ (c.switch >>= switch) = .ok c := by
  intro c
  obtain ⟨-, refused, -, composed, undone, -, arity, -⟩ := permutations_act triple
  obtain ⟨-, -, -, -, -, -, -, twice⟩ := permutations_act c
  have left : [2, 0, 1].Perm (List.range triple.arity) := by decide
  have right : [1, 0, 2].Perm (List.range triple.arity) := by decide
  have repeated : ¬[0, 0, 1].Perm (List.range triple.arity) := by decide
  refine ⟨⟨left, right, composed _ _ _ left right fun i => ?_, (undone _ left).2.2⟩,
    ⟨repeated, refused _ repeated⟩, ⟨by decide, arity (by decide)⟩, rfl, twice rfl⟩
  match i with
  | 0 | 1 | 2 => rfl
  | _ + 3 => rfl

end Lambda

end RowQuery
