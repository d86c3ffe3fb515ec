/-!
# Lists without repeated keys

* `distinctBy` — the first member of each key, in order.
* `firstRepeat?` — the first member whose key an earlier member has.
* `firstRepeat?_eq_none_iff`, `firstRepeat?_eq_some_iff` — there is none exactly if the keys are
  pairwise distinct, and otherwise the keys before it are.
* `mem_of_mem_distinctBy`, `exists_mem_distinctBy` — no member is new, and no key is lost.
* `find?_distinctBy` — the first member whose key has a property is a first member of its key.
-/

namespace RowQuery

variable {α β : Type} [BEq β]

/-- **The first member of each key**, in order. -/
def distinctBy (key : α → β) : List α → List α
  | [] => []
  | x :: xs => x :: (distinctBy key xs).filter fun y => !(key x == key y)

/-- Nothing new is among the first members of each key. -/
theorem mem_of_mem_distinctBy {key : α → β} {x : α} {xs : List α} (h : x ∈ distinctBy key xs) :
    x ∈ xs := by
  induction xs with
  | nil => exact h
  | cons y ys ih =>
      rcases List.mem_cons.mp h with rfl | h
      · exact List.mem_cons_self
      · exact List.mem_cons_of_mem _ (ih (List.mem_filter.mp h).1)

/-- Every key has a first member. -/
theorem exists_mem_distinctBy [LawfulBEq β] {key : α → β} {x : α} {xs : List α} (h : x ∈ xs) :
    ∃ y ∈ distinctBy key xs, key y = key x := by
  induction xs with
  | nil => cases h
  | cons z zs ih =>
      by_cases hkey : key z = key x
      · exact ⟨z, List.mem_cons_self, hkey⟩
      · rcases List.mem_cons.mp h with rfl | h
        · exact absurd rfl hkey
        · obtain ⟨y, hy, hyx⟩ := ih h
          refine ⟨y, List.mem_cons_of_mem _ (List.mem_filter.mpr ⟨hy, ?_⟩), hyx⟩
          rw [hyx]
          simpa using hkey

/-- **A search by key** finds the same as in the list with its repetitions. -/
theorem find?_distinctBy [LawfulBEq β] {key : α → β} {p : α → Bool}
    (by_key : ∀ x y, key x = key y → p x = p y) (xs : List α) :
    (distinctBy key xs).find? p = xs.find? p := by
  induction xs with
  | nil => rfl
  | cons x xs ih =>
      rw [distinctBy, List.find?_cons, List.find?_cons]
      cases found : p x with
      | true => rfl
      | false =>
          -- what is left out has the key of `x`, so it is not looked for
          rw [← ih, List.find?_filter]
          refine congrArg (List.find? · _) (funext fun y => ?_)
          by_cases same : key x = key y
          · simp [same, ← by_key x y same, found]
          · simp [same]

/-- The first member whose key is among `seen` or is that of an earlier member. -/
def firstRepeatAfter? (key : α → β) (seen : List β) : List α → Option α
  | [] => none
  | x :: xs =>
      if seen.contains (key x) then some x else firstRepeatAfter? key (key x :: seen) xs

/-- **The first member whose key an earlier member has.** -/
def firstRepeat? (key : α → β) (xs : List α) : Option α := firstRepeatAfter? key [] xs

/-- No repetition after `seen` means: the keys are pairwise distinct, and none is in `seen`. -/
theorem firstRepeatAfter?_eq_none_iff [LawfulBEq β] {key : α → β} {seen : List β} {xs : List α} :
    firstRepeatAfter? key seen xs = none ↔
      (xs.map key).Nodup ∧ ∀ x ∈ xs, key x ∉ seen := by
  induction xs generalizing seen with
  | nil => simp [firstRepeatAfter?]
  | cons x xs ih =>
      by_cases h : key x ∈ seen
      · simp [firstRepeatAfter?, h]
      · simp only [firstRepeatAfter?, List.contains_iff_mem, h, if_false, ih, List.map_cons,
          List.nodup_cons, List.mem_map, List.mem_cons, not_or, forall_eq_or_imp]
        grind

/-- **No repetition** means pairwise distinct keys. -/
theorem firstRepeat?_eq_none_iff [LawfulBEq β] {key : α → β} {xs : List α} :
    firstRepeat? key xs = none ↔ (xs.map key).Nodup := by
  simp [firstRepeat?, firstRepeatAfter?_eq_none_iff]

/-- The first repetition after `seen`: no key before it was seen or is repeated, and its own key was
seen or stands before it. -/
theorem firstRepeatAfter?_eq_some_iff [LawfulBEq β] {key : α → β} {seen : List β} {x : α}
    {xs : List α} :
    firstRepeatAfter? key seen xs = some x ↔ ∃ before after, xs = before ++ x :: after ∧
      (before.map key).Nodup ∧ (∀ y ∈ before, key y ∉ seen) ∧
        (key x ∈ seen ∨ key x ∈ before.map key) := by
  induction xs generalizing seen with
  | nil => simp [firstRepeatAfter?]
  | cons y ys ih =>
      rw [firstRepeatAfter?]
      by_cases repeated : key y ∈ seen
      · rw [if_pos (List.contains_iff_mem.mpr repeated)]
        constructor
        · rintro ⟨⟩
          exact ⟨[], ys, rfl, List.nodup_nil, by simp, .inl repeated⟩
        · rintro ⟨before, after, split, -, unseen, -⟩
          cases before with
          | nil =>
              cases split
              rfl
          | cons z before =>
              cases split
              exact absurd repeated (unseen y List.mem_cons_self)
      · rw [if_neg (by simpa using repeated), ih]
        constructor
        · rintro ⟨before, after, rfl, distinct, unseen, hx⟩
          refine ⟨y :: before, after, rfl, ?_, ?_, ?_⟩ <;> grind
        · rintro ⟨before, after, split, distinct, unseen, hx⟩
          cases before with
          | nil =>
              cases split
              simp [repeated] at hx
          | cons z before =>
              cases split
              refine ⟨before, after, rfl, ?_, ?_, ?_⟩ <;> grind

/-- **The first repetition**: the keys before it are pairwise distinct, and its own is among
them. -/
theorem firstRepeat?_eq_some_iff [LawfulBEq β] {key : α → β} {x : α} {xs : List α} :
    firstRepeat? key xs = some x ↔ ∃ before after, xs = before ++ x :: after ∧
      (before.map key).Nodup ∧ key x ∈ before.map key := by
  simp [firstRepeat?, firstRepeatAfter?_eq_some_iff]

end RowQuery
