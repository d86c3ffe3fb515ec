import RowQuery.Proofs.Alike.Bisimulation

/-!
# Parts of a run that are run again in another order

The left run is cut into parts, each of which makes the closures of one range of numbers.  The
right run does the same parts once each, in an order of its own.  A pairing of what was done so far
is restricted to the closures below a part before the part is run, and the closures of the part
join it afterwards.

* `Pairing.below` — the pairing of the closures below a number, where a part begins.
* `Pairing.adjoin` — the pairing with the closures of one more part.
* **`Pairing.grow_below_le`** — what one more part makes is paired in the adjoined pairing.
* `Agree.eq_ok` — a computation that agrees with a success succeeds.
-/

namespace RowQuery

namespace Pairing

variable {w : Pairing} {m n k : Nat}

/-- **The pairing of the closures below a number**, with which the next one of the left run is to
have that number. -/
def below (w : Pairing) (m : Nat) : Pairing where
  rel i j := w.rel i j ∧ i < m
  left := m
  right := w.right
  lt_left h := h.2
  lt_right h := w.lt_right h.1
  unique h h' := w.unique h.1 h'.1

@[simp]
theorem below_right (w : Pairing) (m : Nat) : (w.below m).right = w.right := rfl

theorem below_le (w : Pairing) (m : Nat) : w.below m ≤ w := fun _ _ h => h.1

theorem below_mono (w : Pairing) (h : m ≤ n) : w.below m ≤ w.below n :=
  fun _ _ hij => ⟨hij.1, Nat.lt_of_lt_of_le hij.2 h⟩

theorem below_le_below {v : Pairing} (h : w ≤ v) (m : Nat) : w.below m ≤ v.below m :=
  fun _ _ hij => ⟨h _ _ hij.1, hij.2⟩

/-- **No closure of a range is paired.** -/
def Free (w : Pairing) (m k : Nat) : Prop := ∀ ⦃i j⦄, w.rel i j → i < m ∨ m + k ≤ i

/-- Closures of one more part, which the left run makes from `m` on and the right run makes next, or
closures that were paired before. -/
def Adjoined (w : Pairing) (m k i j : Nat) : Prop :=
  w.rel i j ∨ ∃ t, t < k ∧ i = m + t ∧ j = w.right + t

theorem Adjoined.lt_left {i j : Nat} (h : w.Adjoined m k i j) : i < max w.left (m + k) := by
  rcases h with h | ⟨t, ht, rfl, -⟩
  · exact Nat.lt_of_lt_of_le (w.lt_left h) (Nat.le_max_left ..)
  · omega

theorem Adjoined.lt_right {i j : Nat} (h : w.Adjoined m k i j) : j < w.right + k := by
  rcases h with h | ⟨t, ht, -, rfl⟩
  · exact Nat.lt_add_right k (w.lt_right h)
  · omega

theorem Adjoined.unique (free : w.Free m k) {i j i' j' : Nat} (h : w.Adjoined m k i j)
    (h' : w.Adjoined m k i' j') : i = i' ↔ j = j' := by
  rcases h with h | ⟨t, ht, rfl, rfl⟩ <;> rcases h' with h' | ⟨u, hu, rfl, rfl⟩
  · exact w.unique h h'
  · have apart := free h
    have before := w.lt_right h
    omega
  · have apart := free h'
    have before := w.lt_right h'
    omega
  · omega

/-- **The pairing with the closures of one more part.** -/
def adjoin (w : Pairing) (m k : Nat) (free : w.Free m k) : Pairing where
  rel := w.Adjoined m k
  left := max w.left (m + k)
  right := w.right + k
  lt_left := Adjoined.lt_left
  lt_right := Adjoined.lt_right
  unique := Adjoined.unique free

@[simp]
theorem adjoin_right (w : Pairing) (free : w.Free m k) :
    (w.adjoin m k free).right = w.right + k := rfl

theorem le_adjoin (w : Pairing) (free : w.Free m k) : w ≤ w.adjoin m k free :=
  fun _ _ h => .inl h

/-- A later number cuts off no more. -/
theorem below_le_adjoin_below (w : Pairing) (free : w.Free m k) (n : Nat) :
    w.below n ≤ (w.adjoin m k free).below n :=
  fun _ _ h => ⟨.inl h.1, h.2⟩

/-- **What one more part makes is paired.** -/
theorem grow_below_le (w : Pairing) (free : w.Free m k) :
    (w.below m).grow k ≤ (w.adjoin m k free).below (m + k) := by
  rintro i j (h | ⟨t, ht, rfl, rfl⟩)
  · exact ⟨.inl h.1, Nat.lt_add_right k h.2⟩
  · exact ⟨.inr ⟨t, ht, rfl, rfl⟩, Nat.add_lt_add_left ht m⟩

/-- A range stays free if it does not meet the range of the part. -/
theorem Free.adjoin {n l : Nat} (h : w.Free n l) (free : w.Free m k)
    (apart : m + k ≤ n ∨ n + l ≤ m) : (w.adjoin m k free).Free n l := by
  rintro i j (hij | ⟨t, ht, rfl, -⟩)
  · exact h hij
  · omega

/-- What lies above all that is paired is free. -/
theorem free_of_left_le (h : w.left ≤ m) (k : Nat) : w.Free m k :=
  fun _ _ hij => .inl (Nat.lt_of_lt_of_le (w.lt_left hij) h)

end Pairing

/-! ## Computations that succeed -/

variable {ε α β : Type} {w : Pairing} {R : Pairing → α → β → Prop}
  {c : StateT Nat (Except ε) α} {d : StateT Nat (Except ε) β}

/-- **A computation that agrees with a success succeeds**, too. -/
theorem Agree.eq_ok {a : α} {m : Nat} (h : Agree w R c d) (hc : c w.left = .ok (a, m)) :
    ∃ k b, m = w.left + k ∧ d w.right = .ok (b, w.right + k) ∧ R (w.grow k) a b := by
  unfold Agree at h
  rw [hc] at h
  cases hd : d w.right with
  | error e =>
      rw [hd] at h
      exact h.elim
  | ok y =>
      rw [hd] at h
      obtain ⟨b, n⟩ := y
      obtain ⟨k, rfl, rfl, hab⟩ := h
      exact ⟨k, b, rfl, rfl, hab⟩

/-- It fails exactly as the other one does. -/
theorem Agree.eq_error_iff (h : Agree w R c d) {e : ε} :
    c w.left = .error e ↔ d w.right = .error e := by
  unfold Agree at h
  cases hc : c w.left <;> cases hd : d w.right <;> simp_all [Outcomes]

/-- A success without closures is found again at every later time. -/
theorem Agree.eq_ok_of_closureFree {c d : StateT Nat (Except ε) Value} {v : Value} {m : Nat}
    (h : Agree w Value.Alike c d) (hc : c w.left = .ok (v, m)) (free : v.ClosureFree) :
    ∃ k, d w.right = .ok (v, w.right + k) := by
  obtain ⟨k, u, -, hd, hvu⟩ := h.eq_ok hc
  obtain rfl := Value.Alike.bisimulation.eq_of_closureFree hvu free
  exact ⟨k, hd⟩

end RowQuery
