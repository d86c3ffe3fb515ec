import RowQuery.Proofs.Query.SettledOutcomes

/-!
# Keys that are evaluated again

A join evaluates the keys of one side and then those of the other.  At another time, or in the other
order, the keys hold other closures, but they come out alike, so the same rows match.

* `KeyedAlike` — the same rows beside keys that are alike.
* `KeyedAlike.leftPairs_eq`, `KeyedAlike.unmatched_eq` — they make the same pairs, and leave the same
  rows alone.
* `Rows.keyed_rows`, `Rows.known_of_keyed`, `Rows.depth_ne_zero_of_keyed`, `Rows.le_of_keyed` — what
  keys that came out say.
* `Rows.KeysSettle` — keys of two sides that come out alike at every later time, in either order.
* **`Rows.keysSettle`** — keys that came out once settle.
-/

namespace RowQuery

/-! ## Alike keys -/

/-- **The same rows beside keys that are alike.** -/
def KeyedAlike {α : Type} (w : Pairing) : List (Value × α) → List (Value × α) → Prop :=
  List.Forall₂ fun x x' => x.1.Alike w x'.1 ∧ x.2 = x'.2

namespace KeyedAlike

variable {α β : Type} {w : Pairing} {nullKeysMatch : Bool} {outer outer' : List (Value × α)}
  {inner inner' : List (Value × β)}

theorem persistent {v : Pairing} (hwv : w ≤ v) (h : KeyedAlike w outer outer') :
    KeyedAlike v outer outer' :=
  h.imp fun _ _ hx => ⟨Value.Alike.persistent hwv hx.1, hx.2⟩

theorem partners_eq {k k' : Value} (hk : k.Alike w k') (h : KeyedAlike w inner inner') :
    partners nullKeysMatch k inner = partners nullKeysMatch k' inner' :=
  partners_congr (h.imp fun _ _ hx => ⟨Rows.keysMatch_alike nullKeysMatch hk hx.1, hx.2⟩)

/-- **Alike keys make the same pairs.** -/
theorem leftPairs_eq (houter : KeyedAlike w outer outer') (hinner : KeyedAlike w inner inner') :
    leftPairs nullKeysMatch outer inner = leftPairs nullKeysMatch outer' inner' := by
  induction houter with
  | nil => rfl
  | cons hx _ ih =>
      unfold leftPairs at ih ⊢
      rw [List.flatMap_cons, List.flatMap_cons, ih, partners_eq hx.1 hinner, hx.2]

/-- They leave the same rows alone. -/
theorem unmatched_eq (houter : KeyedAlike w outer outer') (hinner : KeyedAlike w inner inner') :
    unmatched nullKeysMatch outer inner = unmatched nullKeysMatch outer' inner' :=
  unmatched_congr (hinner.imp fun _ _ hy => ⟨partners_eq hy.1 houter, hy.2⟩)

/-- Positions in place of rows. -/
theorem zipIdx (h : KeyedAlike w outer outer') :
    KeyedAlike w (outer.map (·.1)).zipIdx (outer'.map (·.1)).zipIdx := by
  generalize 0 = i
  induction h generalizing i with
  | nil => exact .nil
  | cons hx _ ih => exact .cons ⟨hx.1, rfl⟩ (ih (i + 1))

end KeyedAlike

/-! ## Keys that came out -/

namespace Rows

variable {depth n₀ n₁ n₂ : Nat} {nullKeysMatch : Bool} {outerKey innerKey : Lambda}
  {outer inner : List Value} {keyedOuter keyedInner : List (Value × Value)}

theorem keyed_rows {key : Lambda} {rows : List Value} {xs : List (Value × Value)} {n m : Nat}
    (h : keyed depth key rows n = .ok (xs, m)) : xs.map (·.2) = rows := by
  induction rows generalizing xs n with
  | nil =>
      cases h
      rfl
  | cons row rows ih =>
      rw [keyed, List.mapM_cons] at h
      obtain ⟨x, k, first, h⟩ := RowM.bind_eq_ok_iff.mp h
      obtain ⟨ys, l, rest, h⟩ := RowM.bind_eq_ok_iff.mp h
      obtain ⟨key, j, -, first⟩ := RowM.bind_eq_ok_iff.mp first
      cases first
      cases h
      rw [List.map_cons, ih rest]

theorem known_of_keyed {key : Lambda} {rows : List Value} {xs : List (Value × Value)} {n m k : Nat}
    (known : ∀ row ∈ rows, row.Known n) (run : keyed depth key rows m = .ok (xs, k)) :
    ∀ x ∈ xs, x.2.Known n := by
  intro x hx
  have row : x.2 ∈ rows := keyed_rows run ▸ List.mem_map_of_mem hx
  exact known _ row

/-- A key has no value where no call may nest. -/
theorem depth_ne_zero_of_keyed {key : Lambda} {rows : List Value} {xs : List (Value × Value)}
    {n m : Nat} (h : keyed depth key rows n = .ok (xs, m)) (some : xs ≠ []) :
    ∃ d, depth = d + 1 := by
  cases depth with
  | succ d => exact ⟨d, rfl⟩
  | zero =>
      cases rows with
      | nil =>
          cases h
          exact absurd rfl some
      | cons row rows => cases h

private theorem equal_persistent : Persistent fun (_ : Pairing) (a b : Value) => a = b :=
  fun _ _ _ _ _ h => h

/-- Rows that are there are alike themselves. -/
private theorem alike_self {rows : List Value} {w : Pairing} {n : Nat}
    (known : ∀ row ∈ rows, row.Known n) (paired : ∀ i < n, w.rel i i) :
    List.Forall₂ (fun row row' => row.Alike w row' ∧ row = row') rows rows :=
  List.forall₂_same.mpr fun row hrow =>
    ⟨Value.Alike.refl fun i hi => paired i (known row hrow i hi), rfl⟩

theorem le_of_keyed {key : Lambda} {rows : List Value} {xs : List (Value × Value)} {n m : Nat}
    (known : ∀ row ∈ rows, row.Known n) (run : keyed depth key rows n = .ok (xs, m)) : n ≤ m := by
  have paired : ∀ i < n, (Pairing.known n n).rel i i := fun i hi => ⟨rfl, hi, hi⟩
  obtain ⟨k, -, hk, -⟩ :=
    (keyed_agree equal_persistent (Lambda.Alike.refl key) (alike_self known paired) depth).eq_ok run
  exact hk ▸ Nat.le_add_right n k

/-- The keys of one list of rows and then those of another come out alike the given ones. -/
def KeysComeOut (depth m : Nat) (firstKey secondKey : Lambda) (first second : List Value)
    (keyedFirst keyedSecond : List (Value × Value)) : Prop :=
  ∃ w : Pairing, ∃ keyedFirst' keyedSecond' k l,
    keyed depth firstKey first m = .ok (keyedFirst', m + k) ∧
    keyed depth secondKey second (m + k) = .ok (keyedSecond', m + k + l) ∧
    KeyedAlike w keyedFirst keyedFirst' ∧ KeyedAlike w keyedSecond keyedSecond'

/-- **Keys that settle**: at every time from `n` on, and in either order, they come out alike. -/
structure KeysSettle (depth n : Nat) (outerKey innerKey : Lambda) (outer inner : List Value)
    (keyedOuter keyedInner : List (Value × Value)) : Prop where
  outerFirst : ∀ m, n ≤ m →
    KeysComeOut depth m outerKey innerKey outer inner keyedOuter keyedInner
  innerFirst : ∀ m, n ≤ m →
    KeysComeOut depth m innerKey outerKey inner outer keyedInner keyedOuter

/-- It does not matter which side is called the outer one. -/
theorem KeysSettle.symm
    (h : KeysSettle depth n₀ outerKey innerKey outer inner keyedOuter keyedInner) :
    KeysSettle depth n₀ innerKey outerKey inner outer keyedInner keyedOuter :=
  ⟨h.innerFirst, h.outerFirst⟩

/-- The same keys in the same order at a later time. -/
private theorem keyed_later (houter : ∀ row ∈ outer, row.Known n₀)
    (hinner : ∀ row ∈ inner, row.Known n₀)
    (first : keyed depth innerKey inner n₀ = .ok (keyedInner, n₁))
    (second : keyed depth outerKey outer n₁ = .ok (keyedOuter, n₂)) {m : Nat} (hm : n₀ ≤ m) :
    KeysComeOut depth m innerKey outerKey inner outer keyedInner keyedOuter := by
  have paired : ∀ i < n₀, (Pairing.known n₀ m).rel i i := fun i hi => ⟨rfl, hi, by omega⟩
  obtain ⟨k, keyedInner', rfl, run, alikeInner⟩ :=
    (keyed_agree equal_persistent (Lambda.Alike.refl innerKey) (alike_self hinner paired) depth).eq_ok first
  have paired' : ∀ i < n₀, ((Pairing.known n₀ m).grow k).rel i i := fun i hi => .inl (paired i hi)
  obtain ⟨l, keyedOuter', -, run', alikeOuter⟩ :=
    (keyed_agree equal_persistent (Lambda.Alike.refl outerKey) (alike_self houter paired') depth).eq_ok second
  exact ⟨_, keyedInner', keyedOuter', k, l, run, run',
    KeyedAlike.persistent (Pairing.le_grow _ l) alikeInner, alikeOuter⟩

/-- The same keys at a later time, in the other order. -/
private theorem keyed_reversed (houter : ∀ row ∈ outer, row.Known n₀)
    (hinner : ∀ row ∈ inner, row.Known n₀)
    (first : keyed depth innerKey inner n₀ = .ok (keyedInner, n₁))
    (second : keyed depth outerKey outer n₁ = .ok (keyedOuter, n₂)) {m : Nat} (hm : n₀ ≤ m) :
    KeysComeOut depth m outerKey innerKey outer inner keyedOuter keyedInner := by
  have h₁ : n₀ ≤ n₁ := le_of_keyed hinner first
  -- The outer keys come first this time, although the left run makes them from `n₁` on.
  have paired : ∀ i < n₀, ((Pairing.known n₀ m).below n₁).rel i i :=
    fun i hi => ⟨⟨rfl, hi, by omega⟩, by omega⟩
  obtain ⟨k, keyedOuter', -, run, alikeOuter⟩ :=
    (keyed_agree equal_persistent (Lambda.Alike.refl outerKey) (alike_self houter paired) depth).eq_ok second
  have free : (Pairing.known n₀ m).Free n₁ k := Pairing.free_of_left_le h₁ k
  have paired' : ∀ i < n₀, (((Pairing.known n₀ m).adjoin n₁ k free).below n₀).rel i i :=
    fun i hi => ⟨.inl ⟨rfl, hi, by omega⟩, hi⟩
  obtain ⟨l, keyedInner', hl, run', alikeInner⟩ :=
    (keyed_agree equal_persistent (Lambda.Alike.refl innerKey) (alike_self hinner paired') depth).eq_ok first
  have below : n₁ = n₀ + l := hl
  have free' : ((Pairing.known n₀ m).adjoin n₁ k free).Free n₀ l := by
    have start : (Pairing.known n₀ m).Free n₀ l := Pairing.free_of_left_le le_rfl l
    exact start.adjoin free (.inr below.ge)
  refine ⟨((Pairing.known n₀ m).adjoin n₁ k free).adjoin n₀ l free', keyedOuter', keyedInner',
    k, l, run, run', ?_, ?_⟩
  · refine KeyedAlike.persistent ?_ alikeOuter
    exact ((Pairing.grow_below_le _ free).trans (Pairing.below_le _ _)).trans (Pairing.le_adjoin _ _)
  · refine KeyedAlike.persistent ?_ alikeInner
    exact (Pairing.grow_below_le _ free').trans (Pairing.below_le _ _)

/-- **Keys that came out once settle.** -/
theorem keysSettle (houter : ∀ row ∈ outer, row.Known n₀) (hinner : ∀ row ∈ inner, row.Known n₀)
    (first : keyed depth innerKey inner n₀ = .ok (keyedInner, n₁))
    (second : keyed depth outerKey outer n₁ = .ok (keyedOuter, n₂)) :
    KeysSettle depth n₀ outerKey innerKey outer inner keyedOuter keyedInner where
  outerFirst _ hm := keyed_reversed houter hinner first second hm
  innerFirst _ hm := keyed_later houter hinner first second hm

end Rows

end RowQuery
