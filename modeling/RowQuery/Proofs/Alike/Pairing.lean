import Mathlib.Order.Basic
import Mathlib.Data.List.Forall2
import RowQuery.Eval.Basic

/-!
# Two runs side by side

Closures are known by the numbers that evaluation hands out.  Two runs that do the same hand out
different numbers, so what they make is compared along a one-to-one pairing of the numbers.

* `Pairing` — the closures of a left run, each with its counterpart in a right run, and the numbers
  that the runs hand out next.
* `Pairing.known` — the closures that are there before both runs, each paired with itself.
* `Pairing.grow` — the pairing after both runs made some more closures: the first new one of the
  left run belongs to the first new one of the right run, and so on.
* `Agree` — two computations that end alike: both with results that are related in the grown
  pairing, having made equally many closures, or both with the same failure.
* **`Agree.bind`**, **`Agree.mapM`** — what is composed of agreeing computations agrees.
-/

namespace RowQuery

/-! ## Pairings -/

/-- **A pairing of closures** of two runs.  It is one-to-one, and the paired closures are among
those that the runs have made. -/
@[ext]
structure Pairing where
  rel : Nat → Nat → Prop
  /-- The number of the left run's next closure. -/
  left : Nat
  /-- The number of the right run's next closure. -/
  right : Nat
  lt_left : ∀ {i j : Nat}, rel i j → i < left
  lt_right : ∀ {i j : Nat}, rel i j → j < right
  unique : ∀ {i j k l : Nat}, rel i j → rel k l → (i = k ↔ j = l)

namespace Pairing

/-- Pairings are ordered by the pairs that they hold. -/
instance : Preorder Pairing := Preorder.lift Pairing.rel

/-- **The closures that are there already**, each paired with itself. -/
def known (m n : Nat) : Pairing where
  rel i j := i = j ∧ i < m ∧ j < n
  left := m
  right := n
  lt_left h := h.2.1
  lt_right h := h.2.2
  unique h h' := by rw [h.1, h'.1]

@[simp]
theorem known_left (m n : Nat) : (known m n).left = m := rfl

@[simp]
theorem known_right (m n : Nat) : (known m n).right = n := rfl

/-- **The pairing after `k` more closures in each run**, paired in the order in which they are
made. -/
def grow (w : Pairing) (k : Nat) : Pairing where
  rel i j := w.rel i j ∨ ∃ t, t < k ∧ i = w.left + t ∧ j = w.right + t
  left := w.left + k
  right := w.right + k
  lt_left := by
    rintro i j (h | ⟨t, ht, rfl, -⟩)
    · exact Nat.lt_add_right k (w.lt_left h)
    · omega
  lt_right := by
    rintro i j (h | ⟨t, ht, -, rfl⟩)
    · exact Nat.lt_add_right k (w.lt_right h)
    · omega
  unique := by
    rintro i j k l (h | ⟨t, -, rfl, rfl⟩) (h' | ⟨u, -, rfl, rfl⟩)
    · exact w.unique h h'
    · have := w.lt_left h
      have := w.lt_right h
      omega
    · have := w.lt_left h'
      have := w.lt_right h'
      omega
    · omega

@[simp]
theorem grow_left (w : Pairing) (k : Nat) : (w.grow k).left = w.left + k := rfl

@[simp]
theorem grow_right (w : Pairing) (k : Nat) : (w.grow k).right = w.right + k := rfl

@[simp]
theorem grow_zero (w : Pairing) : w.grow 0 = w := by
  ext i j
  · simp [grow]
  · rfl
  · rfl

/-- Growing twice is growing once by the sum. -/
@[simp]
theorem grow_grow (w : Pairing) (k l : Nat) : (w.grow k).grow l = w.grow (k + l) := by
  ext i j
  · constructor
    · rintro ((h | ⟨t, ht, hi, hj⟩) | ⟨t, ht, hi, hj⟩)
      · exact .inl h
      · exact .inr ⟨t, by omega, hi, hj⟩
      · simp only [grow_left, grow_right] at hi hj
        exact .inr ⟨k + t, by omega, by omega, by omega⟩
    · rintro (h | ⟨t, ht, hi, hj⟩)
      · exact .inl (.inl h)
      · by_cases hk : t < k
        · exact .inl (.inr ⟨t, hk, hi, hj⟩)
        · refine .inr ⟨t - k, by omega, ?_, ?_⟩ <;> simp only [grow_left, grow_right] <;> omega
  · exact Nat.add_assoc ..
  · exact Nat.add_assoc ..

theorem le_grow (w : Pairing) (k : Nat) : w ≤ w.grow k := fun _ _ h => .inl h

theorem known_mono {m n : Nat} (h : m ≤ n) : known m m ≤ known n n :=
  fun _ _ hij => ⟨hij.1, Nat.lt_of_lt_of_le hij.2.1 h, Nat.lt_of_lt_of_le hij.2.2 h⟩

/-- What one run makes is there afterwards. -/
theorem grow_known_le (n k : Nat) : (known n n).grow k ≤ known (n + k) (n + k) := by
  rintro i j (⟨rfl, hi, -⟩ | ⟨t, ht, rfl, rfl⟩)
  · exact ⟨rfl, Nat.lt_add_right k hi, Nat.lt_add_right k hi⟩
  · exact ⟨rfl, Nat.add_lt_add_left ht n, Nat.add_lt_add_left ht n⟩

/-- The closures that two runs make next are paired. -/
theorem grow_rel_next (w : Pairing) : (w.grow 1).rel w.left w.right :=
  .inr ⟨0, by omega, rfl, rfl⟩

end Pairing

/-! ## Computations that agree -/

/-- Outcomes that are related: both are results in the relation, or both are the same failure. -/
def Outcomes {ε α β : Type} (R : α → β → Prop) : Except ε α → Except ε β → Prop
  | .ok a, .ok b => R a b
  | .error e, .error e' => e = e'
  | _, _ => False

/-- **Agreement of two computations**, begun with the next closures of a pairing. -/
def Agree {ε α β : Type} (w : Pairing) (R : Pairing → α → β → Prop)
    (c : StateT Nat (Except ε) α) (d : StateT Nat (Except ε) β) : Prop :=
  Outcomes (fun x y => ∃ k, x.2 = w.left + k ∧ y.2 = w.right + k ∧ R (w.grow k) x.1 y.1)
    (c w.left) (d w.right)

/-- A relation that pairs made later do not undo. -/
def Persistent {α β : Type} (R : Pairing → α → β → Prop) : Prop :=
  ∀ ⦃w v : Pairing⦄, w ≤ v → ∀ ⦃a b⦄, R w a b → R v a b

namespace Outcomes

variable {ε α β : Type} {R S : α → β → Prop}

theorem imp (h : ∀ a b, R a b → S a b) : ∀ {r : Except ε α} {s : Except ε β},
    Outcomes R r s → Outcomes S r s
  | .ok _, .ok _, hr => h _ _ hr
  | .error _, .error _, hr => hr

/-- Outcomes that continue alike from related results are related. -/
theorem bind {γ δ : Type} {T : γ → δ → Prop} {f : α → Except ε γ} {g : β → Except ε δ} :
    ∀ {r : Except ε α} {s : Except ε β}, Outcomes R r s →
      (∀ a b, R a b → Outcomes T (f a) (g b)) → Outcomes T (r >>= f) (s >>= g)
  | .ok _, .ok _, hr, h => h _ _ hr
  | .error _, .error _, hr, _ => hr

end Outcomes

namespace Agree

variable {ε α β γ δ : Type} {w : Pairing} {R : Pairing → α → β → Prop}
  {c : StateT Nat (Except ε) α} {d : StateT Nat (Except ε) β}

theorem pure {a : α} {b : β} (h : R w a b) :
    Agree w R (Pure.pure a : StateT Nat (Except ε) α) (Pure.pure b) :=
  ⟨0, rfl, rfl, by rwa [Pairing.grow_zero]⟩

theorem throw (e : ε) :
    Agree w R (MonadExcept.throw e : StateT Nat (Except ε) α) (MonadExcept.throw e) :=
  (rfl : e = e)

theorem imp {S : Pairing → α → β → Prop} (h : Agree w R c d)
    (hRS : ∀ k a b, R (w.grow k) a b → S (w.grow k) a b) : Agree w S c d :=
  Outcomes.imp (fun _ _ ⟨k, hm, hn, hab⟩ => ⟨k, hm, hn, hRS k _ _ hab⟩) h

/-- **What is composed of agreeing computations agrees.**  The second ones begin where the first
ones ended, in the grown pairing. -/
theorem bind {S : Pairing → γ → δ → Prop} {f : α → StateT Nat (Except ε) γ}
    {g : β → StateT Nat (Except ε) δ} (h : Agree w R c d)
    (hfg : ∀ k a b, R (w.grow k) a b → Agree (w.grow k) S (f a) (g b)) :
    Agree w S (c >>= f) (d >>= g) := by
  refine Outcomes.bind h ?_
  rintro ⟨a, m⟩ ⟨b, n⟩ ⟨k, rfl, rfl, hab⟩
  refine Outcomes.imp ?_ (hfg k a b hab)
  rintro ⟨x, _⟩ ⟨y, _⟩ ⟨l, rfl, rfl, hxy⟩
  rw [Pairing.grow_grow] at hxy
  exact ⟨k + l, Nat.add_assoc .., Nat.add_assoc .., hxy⟩

/-- **Lists whose members are computed alike are computed alike**, in every later pairing. -/
theorem mapM {σ τ : Type} {f : σ → StateT Nat (Except ε) α} {g : τ → StateT Nat (Except ε) β}
    (hR : Persistent R) {xs : List σ} {ys : List τ}
    (h : List.Forall₂ (fun x y => ∀ v, w ≤ v → Agree v R (f x) (g y)) xs ys) :
    ∀ v, w ≤ v → Agree v (fun v => List.Forall₂ (R v)) (xs.mapM f) (ys.mapM g) := by
  induction h with
  | nil => exact fun v _ => Agree.pure .nil
  | cons hxy _ ih =>
      intro v hv
      simp only [List.mapM_cons]
      refine (hxy v hv).bind fun k a b hab => ?_
      have hk : w ≤ v.grow k := hv.trans (v.le_grow k)
      refine (ih (v.grow k) hk).bind fun l as bs hs => ?_
      exact Agree.pure (.cons (hR (Pairing.le_grow _ _) hab) hs)

end Agree

end RowQuery
