import Mathlib.Data.List.Basic
import RowQuery.Distinct

/-!
# First members

Keeping the first member of each key of a list.

* `distinctBy_filter`, `distinctBy_append` — the first members of a part of a list.
* `map_distinctBy` — their keys.
* **`distinctBy_append_filter`** — members that are there already may be left out.
* `distinctBy_id` — keeping the first members is erasing all later ones.
* **`distinctBy_flatMap`**, `distinctBy_flatMap_distinctBy` — where lists are made of the members of
  a list, later ones may be erased before or afterwards.
* `distinctBy_append_left`, `distinctBy_append_right` — so they may be in either part of a list.
* `FirstOccurrences`, `firstOccurrences_distinctBy` — what the first members are, told by positions.
* `keepNew`, `keepNew_eq` — a pass that remembers what it has met keeps the first members.
-/

namespace RowQuery

/-- Lists made of the members that are kept. -/
theorem flatMap_filter {α β : Type} (p : α → Bool) (f : α → List β) (xs : List α) :
    (xs.filter p).flatMap f = xs.flatMap fun x => if p x then f x else [] := by
  induction xs with
  | nil => rfl
  | cons x xs ih =>
      rw [List.filter_cons, List.flatMap_cons, ← ih]
      split
      · rfl
      · rfl

variable {α β : Type} [BEq β]

section

variable {key : α → β}

/-- **The first members of what a predicate keeps**, if it treats members of one key alike. -/
theorem distinctBy_filter {p : α → Bool} (respects : ∀ {x y}, key x == key y → p x = p y)
    (xs : List α) : distinctBy key (xs.filter p) = (distinctBy key xs).filter p := by
  induction xs with
  | nil => rfl
  | cons x xs ih =>
      rw [distinctBy, List.filter_cons, List.filter_cons]
      by_cases hx : p x
      · rw [if_pos hx, if_pos hx, distinctBy, ih, List.filter_comm]
      · rw [if_neg hx, if_neg hx, ih, List.filter_filter]
        refine List.filter_congr fun y _ => ?_
        by_cases hy : p y
        · have other : ¬ (key x == key y) := fun same => hx ((respects same).trans hy)
          simp [hy, other]
        · simp [hy]

/-- **The first members of two lists**: those of the first one, and those of the second one that are
new. -/
theorem distinctBy_append (xs ys : List α) :
    distinctBy key (xs ++ ys) =
      distinctBy key xs ++ (distinctBy key ys).filter fun y => !xs.any fun x => key x == key y := by
  induction xs with
  | nil => simp [distinctBy]
  | cons x xs ih =>
      rw [List.cons_append, distinctBy, distinctBy, ih, List.filter_append, List.filter_filter,
        List.cons_append]
      simp only [List.any_cons, Bool.not_or]

/-- The keys of the first members are the first keys. -/
theorem map_distinctBy (xs : List α) : (distinctBy key xs).map key = distinctBy id (xs.map key) := by
  induction xs with
  | nil => rfl
  | cons x xs ih =>
      rw [List.map_cons, distinctBy, distinctBy, List.map_cons, ← ih, List.filter_map]
      rfl

/-- **Members that are there already may be left out.** -/
theorem distinctBy_append_filter [EquivBEq β] {p : α → Bool} {xs ys : List α}
    (there : ∀ y ∈ ys, p y = false → y ∈ xs) :
    distinctBy key (xs ++ ys.filter p) = distinctBy key (xs ++ ys) := by
  have respects : ∀ {y z : α}, key y == key z →
      (!xs.any fun x => key x == key y) = !xs.any fun x => key x == key z := by
    intro y z same
    simp only [BEq.congr_right same]
  have kept : (ys.filter p).filter (fun y => !xs.any fun x => key x == key y) =
      ys.filter fun y => !xs.any fun x => key x == key y := by
    rw [List.filter_filter]
    refine List.filter_congr fun y hy => ?_
    cases hp : p y with
    | true => exact Bool.and_true _
    | false =>
        have found : (xs.any fun x => key x == key y) = true :=
          List.any_eq_true.mpr ⟨y, there y hy hp, BEq.rfl⟩
        rw [found]
        rfl
  rw [distinctBy_append, distinctBy_append, ← distinctBy_filter respects,
    ← distinctBy_filter respects, kept]

end

section

variable [EquivBEq β]

/-- **Keeping the first members is erasing all later ones.** -/
theorem distinctBy_id (xs : List β) : distinctBy id xs = xs.eraseDups := by
  match xs with
  | [] => exact List.eraseDups_nil.symm
  | x :: xs =>
      have respects : ∀ {y z : β}, id y == id z → (!x == y) = !x == z := fun same =>
        congrArg (!·) (BEq.congr_right same)
      have first : distinctBy id (x :: xs) = x :: distinctBy id (xs.filter fun y => !x == y) := by
        rw [distinctBy_filter respects]
        rfl
      rw [first, distinctBy_id, List.eraseDups_cons]
      simp only [BEq.comm (a := x)]
termination_by xs.length
decreasing_by exact Nat.lt_succ_of_le (List.length_filter_le _ _)

/-- No first member stands twice. -/
theorem nodup_distinctBy (xs : List β) : (distinctBy id xs).Nodup := by
  induction xs with
  | nil => exact .nil
  | cons x xs ih =>
      refine List.nodup_cons.mpr ⟨fun h => ?_, ih.filter _⟩
      have other := (List.mem_filter.mp h).2
      simp at other

/-- The first members are the first members of themselves. -/
theorem distinctBy_distinctBy (xs : List β) :
    distinctBy id (distinctBy id xs) = distinctBy id xs := by
  induction xs with
  | nil => rfl
  | cons x xs ih =>
      have respects : ∀ {y z : β}, id y == id z → (!id x == id y) = !id x == id z := fun same =>
        congrArg (!·) (BEq.congr_right same)
      rw [distinctBy, distinctBy, distinctBy_filter respects, ih, List.filter_filter]
      simp only [Bool.and_self]

/-- A member is among the first ones, or one that equals it is. -/
theorem any_distinctBy (xs : List β) (y : β) :
    ((distinctBy id xs).any fun x => id x == id y) = xs.any fun x => id x == id y := by
  induction xs with
  | nil => rfl
  | cons x xs ih =>
      rw [distinctBy, List.any_cons, List.any_cons, ← ih, List.any_filter]
      by_cases same : id x == id y
      · rw [same, Bool.true_or, Bool.true_or]
      · refine congrArg _ (congrArg (List.any _) (funext fun z => ?_))
        by_cases hz : id z == id y
        · have other : (id x == id z) = false :=
            Bool.eq_false_iff.mpr fun h => same (BEq.trans h hz)
          rw [hz, other]
          rfl
        · rw [Bool.eq_false_iff.mpr hz, Bool.and_false]

/-- **Lists that are made of members**: of each of them only the first members count. -/
theorem distinctBy_flatMap_distinctBy (f : α → List β) (xs : List α) :
    distinctBy id (xs.flatMap fun x => distinctBy id (f x)) = distinctBy id (xs.flatMap f) := by
  induction xs with
  | nil => rfl
  | cons x xs ih =>
      rw [List.flatMap_cons, List.flatMap_cons, distinctBy_append, distinctBy_append,
        distinctBy_distinctBy, ih]
      simp only [any_distinctBy]

/-- **Lists that are made of members**: only those of the first members count. -/
theorem distinctBy_flatMap [BEq α] [LawfulBEq α] (f : α → List β) (xs : List α) :
    distinctBy id ((distinctBy id xs).flatMap f) = distinctBy id (xs.flatMap f) := by
  induction xs with
  | nil => rfl
  | cons x xs ih =>
      have respects : ∀ {y z : β}, id y == id z →
          (!(f x).any fun u => id u == id y) = !(f x).any fun u => id u == id z := by
        intro y z same
        simp only [BEq.congr_right same]
      -- what `x` itself would give again is there already
      have again : (((distinctBy id xs).filter fun y => !id x == id y).flatMap f).filter
            (fun y => !(f x).any fun u => id u == id y) =
          ((distinctBy id xs).flatMap f).filter fun y => !(f x).any fun u => id u == id y := by
        rw [flatMap_filter, List.filter_flatMap, List.filter_flatMap]
        refine List.flatMap_congr fun y _ => ?_
        by_cases hy : x = y
        · subst hy
          have there : (f x).filter (fun y => !(f x).any fun u => id u == id y) = [] := by
            refine List.filter_eq_nil_iff.mpr fun z hz => ?_
            simp only [Bool.not_eq_true', Bool.not_eq_false]
            exact List.any_eq_true.mpr ⟨z, hz, BEq.rfl⟩
          rw [there, if_neg (by simp), List.filter_nil]
        · rw [if_pos (by simpa using hy)]
      rw [distinctBy, List.flatMap_cons, List.flatMap_cons, distinctBy_append, distinctBy_append,
        ← distinctBy_filter respects, again, distinctBy_filter respects, ih]

/-- Later members may be erased from the first part of a list before. -/
theorem distinctBy_append_left (xs ys : List β) :
    distinctBy id (distinctBy id xs ++ ys) = distinctBy id (xs ++ ys) := by
  rw [distinctBy_append, distinctBy_append, distinctBy_distinctBy]
  simp only [any_distinctBy]

/-- Later members may be erased from the second part of a list before. -/
theorem distinctBy_append_right (xs ys : List β) :
    distinctBy id (xs ++ distinctBy id ys) = distinctBy id (xs ++ ys) := by
  rw [distinctBy_append, distinctBy_append, distinctBy_distinctBy]

/-- A part with nothing new adds nothing. -/
theorem distinctBy_append_of_subset {xs ys : List β} (there : ys ⊆ xs) :
    distinctBy id (xs ++ ys) = distinctBy id xs := by
  have left_out : distinctBy id (xs ++ ys.filter fun _ => false) = distinctBy id (xs ++ ys) :=
    distinctBy_append_filter fun y hy _ => there hy
  rw [← left_out, List.filter_false, List.append_nil]

end

/-! ## Positions -/

/-- **The first occurrences in a list**, told by positions in it. -/
structure FirstOccurrences (xs kept : List β) : Prop where
  /-- No two members are equal. -/
  distinct : kept.Pairwise fun x y => (x == y) = false
  /-- Nothing is lost, and nothing is new. -/
  complete : ∀ x, kept.contains x = xs.contains x
  /-- What occurs earlier in the list stands earlier. -/
  ordered : kept.Pairwise fun x y => xs.idxOf x < xs.idxOf y
  /-- Of equal members the first one is kept. -/
  first : ∀ x ∈ kept, xs[xs.idxOf x]? = some x

/-- **The first members stand where they occur first.** -/
theorem firstOccurrences_distinctBy [EquivBEq β] (xs : List β) :
    FirstOccurrences xs (distinctBy id xs) := by
  induction xs with
  | nil => exact ⟨.nil, fun _ => rfl, .nil, fun _ h => nomatch h⟩
  | cons x xs ih =>
      have other : ∀ y ∈ (distinctBy id xs).filter (fun y => !id x == id y), (x == y) = false :=
        fun y hy => by simpa using (List.mem_filter.mp hy).2
      have head : (x :: xs).idxOf x = 0 := by
        rw [List.idxOf_cons, BEq.rfl]
        rfl
      have tail : ∀ y ∈ (distinctBy id xs).filter (fun y => !id x == id y),
          (x :: xs).idxOf y = xs.idxOf y + 1 := by
        intro y hy
        rw [List.idxOf_cons, other y hy]
        rfl
      refine ⟨.cons other (ih.distinct.filter _), fun y => ?_, .cons (fun y hy => ?_) ?_, ?_⟩
      · simpa only [id, List.contains_eq_any_beq, BEq.comm (a := y)]
          using any_distinctBy (x :: xs) y
      · rw [head, tail y hy]
        exact Nat.succ_pos _
      · refine (ih.ordered.filter _).imp_of_mem fun hy hz lt => ?_
        rw [tail _ hy, tail _ hz]
        exact Nat.succ_lt_succ lt
      · intro y hy
        rcases List.mem_cons.mp hy with rfl | hy
        · rw [head]
          rfl
        · rw [tail y hy]
          exact ih.first y (List.mem_filter.mp hy).1

/-! ## One pass -/

/-- **A pass that remembers**: a member is kept unless an equal one was met before. -/
def keepNew (met : List β) : List β → List β
  | [] => []
  | x :: xs => if met.contains x then keepNew met xs else x :: keepNew (x :: met) xs

/-- **The pass keeps the first members** that had not been met when it started. -/
theorem keepNew_eq [EquivBEq β] (met xs : List β) :
    keepNew met xs = (distinctBy id xs).filter fun x => !met.contains x := by
  induction xs generalizing met with
  | nil => rfl
  | cons x xs ih =>
      rw [keepNew, distinctBy, List.filter_cons, List.filter_filter]
      by_cases there : met.contains x
      · rw [if_pos there, if_neg (by simp [there]), ih]
        refine List.filter_congr fun y _ => ?_
        -- what equals `x` has been met as well, so it is left out either way
        by_cases same : x == y
        · have again : met.contains y = true :=
            (List.contains_congr (BEq.symm same)).trans there
          simp [again]
        · simp [same]
      · have grown : ∀ y, (!(x :: met).contains y) = (!met.contains y && !x == y) := fun y => by
          rw [List.contains_cons, Bool.not_or, Bool.and_comm, BEq.comm]
        rw [if_neg there, if_pos (by simpa using there), ih]
        simp only [grown]
        rfl

end RowQuery
