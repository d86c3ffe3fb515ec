import Mathlib.Data.List.Perm.Basic
import RowQuery.Proofs.Query.JoinPairs

/-!
# Pairs from either side

A left join goes over the outer rows, a right join over the inner ones.  Both put the same rows
together; what differs is the order of the pairs, and which rows stand alone.

* `rightPairs` — the pairs of a right join, in the order of the inner rows.
* `matchedPairs` — the pairs in which neither side is absent.
* **`matchedPairs_perm`** — left and right joins put the same rows together.
* `leftPairs_perm` — a left join is what it puts together, and the rows that it leaves alone.
* **`fullPairs_perm_swap`** — a full join is the same from either side, up to order.
* `filter_rightPairs`, `mem_leftPairs_of_mem_rightPairs` — a right join has the pairs that a full
  join adds to the left join, and others that the left join has already.
-/

namespace RowQuery

variable {α β : Type} {nullKeysMatch : Bool}

/-- **The pairs of a right join**: each inner row with each of its partners, or alone. -/
def rightPairs (nullKeysMatch : Bool) (outer : List (Value × α)) (inner : List (Value × β)) :
    List (Option α × Option β) :=
  (leftPairs nullKeysMatch inner outer).map Prod.swap

/-- **The pairs in which neither side is absent.** -/
def matchedPairs (pairs : List (Option α × Option β)) : List (α × β) :=
  pairs.filterMap fun
    | (some a, some b) => some (a, b)
    | _ => none

/-- Exchanging the sides of all pairs exchanges those of the matched ones. -/
theorem matchedPairs_map_swap (pairs : List (Option α × Option β)) :
    matchedPairs (pairs.map Prod.swap) = (matchedPairs pairs).map Prod.swap := by
  rw [matchedPairs, matchedPairs, List.filterMap_map, List.map_filterMap]
  refine List.filterMap_congr fun pair _ => ?_
  rcases pair with ⟨_ | a, _ | b⟩ <;> rfl

/-! ## Two loops -/

/-- The members that satisfy a predicate, taken one by one. -/
theorem flatMap_ite {γ : Type} (p : β → Bool) (f : β → γ) (ys : List β) :
    (ys.flatMap fun y => if p y then [f y] else []) = (ys.filter p).map f := by
  induction ys with
  | nil => rfl
  | cons y ys ih =>
      rw [List.flatMap_cons, ih, List.filter_cons]
      split <;> rfl

/-- The rows without a partner, taken one by one. -/
theorem map_unmatched {γ : Type} (f : β → γ) (outer : List (Value × α))
    (inner : List (Value × β)) :
    (unmatched nullKeysMatch outer inner).map f = inner.flatMap fun y =>
      if (partners nullKeysMatch y.1 outer).isEmpty then [f y.2] else [] := by
  rw [flatMap_ite, unmatched, List.map_map]
  rfl

/-- One row more on the other side. -/
theorem partners_cons (k : Value) (x : Value × α) (xs : List (Value × α)) :
    partners nullKeysMatch k (x :: xs) =
      (if keysMatch nullKeysMatch k x.1 then [x.2] else []) ++ partners nullKeysMatch k xs := by
  rw [partners, List.filter_cons]
  split <;> rfl

/-- **The order of two loops** over rows that match does not matter. -/
theorem flatMap_partners_perm (outer : List (Value × α)) (inner : List (Value × β)) :
    (outer.flatMap fun x => (partners nullKeysMatch x.1 inner).map fun b => (x.2, b)).Perm
      (inner.flatMap fun y => (partners nullKeysMatch y.1 outer).map fun a => (a, y.2)) := by
  induction outer with
  | nil => simp [partners]
  | cons x outer ih =>
      have first : ((partners nullKeysMatch x.1 inner).map fun b => (x.2, b)) =
          inner.flatMap fun y =>
            if keysMatch nullKeysMatch x.1 y.1 then [(x.2, y.2)] else [] := by
        rw [flatMap_ite, partners, List.map_map]
        rfl
      have split : (inner.flatMap fun y =>
          (partners nullKeysMatch y.1 (x :: outer)).map fun a => (a, y.2)) =
          inner.flatMap fun y => (if keysMatch nullKeysMatch x.1 y.1 then [(x.2, y.2)] else []) ++
            (partners nullKeysMatch y.1 outer).map fun a => (a, y.2) := by
        refine List.flatMap_congr fun y _ => ?_
        rw [partners_cons, List.map_append, keysMatch_comm]
        split <;> rfl
      rw [List.flatMap_cons, split, first]
      exact (ih.append_left _).trans (List.flatMap_append_perm inner _ _)

/-! ## What is put together -/

theorem matchedPairs_leftPairs (outer : List (Value × α)) (inner : List (Value × β)) :
    matchedPairs (leftPairs nullKeysMatch outer inner) =
      outer.flatMap fun x => (partners nullKeysMatch x.1 inner).map fun b => (x.2, b) := by
  rw [matchedPairs, leftPairs, List.filterMap_flatMap]
  refine List.flatMap_congr fun x _ => ?_
  cases partners nullKeysMatch x.1 inner with
  | nil => rfl
  | cons b bs =>
      have paired : pairsOf x.2 (b :: bs) = (b :: bs).map fun b => (some x.2, some b) := rfl
      rw [paired, List.filterMap_map, ← List.filterMap_eq_map]
      rfl

theorem matchedPairs_rightPairs (outer : List (Value × α)) (inner : List (Value × β)) :
    matchedPairs (rightPairs nullKeysMatch outer inner) =
      inner.flatMap fun y => (partners nullKeysMatch y.1 outer).map fun a => (a, y.2) := by
  rw [rightPairs, matchedPairs_map_swap, matchedPairs_leftPairs, List.map_flatMap]
  refine List.flatMap_congr fun y _ => ?_
  rw [List.map_map]
  rfl

/-- **Left and right joins put the same rows together.** -/
theorem matchedPairs_perm (outer : List (Value × α)) (inner : List (Value × β)) :
    (matchedPairs (rightPairs nullKeysMatch outer inner)).Perm
      (matchedPairs (leftPairs nullKeysMatch outer inner)) := by
  rw [matchedPairs_leftPairs, matchedPairs_rightPairs]
  exact (flatMap_partners_perm outer inner).symm

/-- **A left join** is what it puts together, and the rows that it leaves alone. -/
theorem leftPairs_perm (outer : List (Value × α)) (inner : List (Value × β)) :
    (leftPairs nullKeysMatch outer inner).Perm
      ((matchedPairs (leftPairs nullKeysMatch outer inner)).map (Prod.map some some) ++
        (unmatched nullKeysMatch inner outer).map fun a => (some a, none)) := by
  have split : leftPairs nullKeysMatch outer inner = outer.flatMap fun x =>
      ((partners nullKeysMatch x.1 inner).map fun b => (some x.2, some b)) ++
        if (partners nullKeysMatch x.1 inner).isEmpty then [(some x.2, none)] else [] := by
    refine List.flatMap_congr fun x _ => ?_
    cases partners nullKeysMatch x.1 inner with
    | nil => rfl
    | cons b bs => exact (List.append_nil _).symm
  rw [matchedPairs_leftPairs, List.map_flatMap, split, map_unmatched]
  simp only [List.map_map]
  exact (List.flatMap_append_perm outer _ _).symm

/-- A right join is what the left join puts together, and the rows that it leaves alone. -/
theorem rightPairs_perm (outer : List (Value × α)) (inner : List (Value × β)) :
    (rightPairs nullKeysMatch outer inner).Perm
      ((matchedPairs (leftPairs nullKeysMatch outer inner)).map (Prod.map some some) ++
        (unmatched nullKeysMatch outer inner).map fun b => (none, some b)) := by
  have exchanged : (rightPairs nullKeysMatch outer inner).Perm
      (((matchedPairs (leftPairs nullKeysMatch inner outer)).map (Prod.map some some) ++
        (unmatched nullKeysMatch outer inner).map fun b => (some b, none)).map Prod.swap) :=
    (leftPairs_perm inner outer).map Prod.swap
  have same : ((matchedPairs (leftPairs nullKeysMatch inner outer)).map
      (Prod.map some some)).map Prod.swap =
      (matchedPairs (rightPairs nullKeysMatch outer inner)).map (Prod.map some some) := by
    rw [rightPairs, matchedPairs_map_swap, List.map_map, List.map_map]
    rfl
  rw [List.map_append, same, List.map_map] at exchanged
  exact exchanged.trans (((matchedPairs_perm outer inner).map _).append_right _)

/-- **A full join is the same from either side**, up to order. -/
theorem fullPairs_perm_swap (outer : List (Value × α)) (inner : List (Value × β)) :
    (fullPairs nullKeysMatch outer inner).Perm
      ((fullPairs nullKeysMatch inner outer).map Prod.swap) := by
  have mirrored : (fullPairs nullKeysMatch inner outer).map Prod.swap =
      rightPairs nullKeysMatch outer inner ++
        (unmatched nullKeysMatch inner outer).map fun a => (some a, none) := by
    rw [fullPairs, List.map_append, List.map_map]
    rfl
  rw [mirrored, fullPairs]
  refine ((leftPairs_perm outer inner).append_right _).trans ?_
  refine List.Perm.trans ?_ ((rightPairs_perm outer inner).symm.append_right _)
  rw [List.append_assoc, List.append_assoc]
  exact List.perm_append_comm.append_left _

/-! ## Right joins and full joins -/

/-- **The pairs without an outer row** are those that a full join adds to the left join. -/
theorem filter_rightPairs (outer : List (Value × α)) (inner : List (Value × β)) :
    (rightPairs nullKeysMatch outer inner).filter (fun pair => pair.1.isNone) =
      (unmatched nullKeysMatch outer inner).map fun b => (none, some b) := by
  rw [rightPairs, leftPairs, List.map_flatMap, List.filter_flatMap, map_unmatched]
  refine List.flatMap_congr fun y _ => ?_
  cases partners nullKeysMatch y.1 outer with
  | nil => rfl
  | cons a as => simp [pairsOf]

/-- The other pairs are those of the left join. -/
theorem mem_leftPairs_of_mem_rightPairs {outer : List (Value × α)} {inner : List (Value × β)}
    {pair : Option α × Option β} (h : pair ∈ rightPairs nullKeysMatch outer inner)
    (there : pair.1.isNone = false) : pair ∈ leftPairs nullKeysMatch outer inner := by
  have hpair := (rightPairs_perm outer inner).mem_iff.mp h
  rcases List.mem_append.mp hpair with hpair | hpair
  · exact (leftPairs_perm outer inner).mem_iff.mpr (List.mem_append_left _ hpair)
  · obtain ⟨b, -, rfl⟩ := List.mem_map.mp hpair
    cases there

/-- A right join has no pairs that a full join lacks. -/
theorem rightPairs_subset_fullPairs (outer : List (Value × α)) (inner : List (Value × β)) :
    rightPairs nullKeysMatch outer inner ⊆ fullPairs nullKeysMatch outer inner := by
  intro pair h
  rw [fullPairs, List.mem_append]
  cases there : pair.1.isNone with
  | false => exact .inl (mem_leftPairs_of_mem_rightPairs h there)
  | true =>
      right
      rw [← filter_rightPairs]
      exact List.mem_filter.mpr ⟨h, there⟩

end RowQuery
