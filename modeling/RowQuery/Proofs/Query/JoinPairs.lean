import Mathlib.Data.List.Forall2
import Mathlib.Data.List.Sigma
import RowQuery.Proofs.Computations
import RowQuery.Query.Sequence

/-!
# Which rows a join puts together

The specification of joins is a nested loop over rows that stand beside their keys.  Correlation
groups rows by key in a table instead, and joins read the groups; both come to the same pairs.

* `keysMatch` — which keys match: equal ones, absent ones only if that is asked for.
* `partners`, `leftPairs`, `unmatched`, `fullPairs` — the nested loop.
* **`KeyTable.rows_ofRows`** — a table gives the rows that match a key.
* `Rows.flatten_groupings` — the join rows of groupings are the pairs of the left join.
* `partners_congr`, `unmatched_congr` — the pairs depend on what matches alone.
* `leftPairs_mapRows`, `unmatched_mapRows` — rows may be replaced by what stands for them, such as
  their positions.
* **`joinsAll_fullPairs`** — on positions: each matching pair stands once, and no row is lost.
-/

namespace RowQuery

/-! ## The nested loop -/

/-- **Whether two keys match.** -/
def keysMatch (nullKeysMatch : Bool) (k l : Value) : Bool :=
  k == l && (nullKeysMatch || !k.isNull)

section

variable {α β : Type}

/-- The rows whose keys match a key, in order. -/
def partners (nullKeysMatch : Bool) (key : Value) (inner : List (Value × β)) : List β :=
  (inner.filter fun y => keysMatch nullKeysMatch key y.1).map (·.2)

/-- The pairs of one row: with each of its partners, or alone. -/
def pairsOf (a : α) : List β → List (Option α × Option β)
  | [] => [(some a, none)]
  | bs => bs.map fun b => (some a, some b)

/-- **The pairs of a left join**: each outer row with each of its partners, or alone. -/
def leftPairs (nullKeysMatch : Bool) (outer : List (Value × α)) (inner : List (Value × β)) :
    List (Option α × Option β) :=
  outer.flatMap fun x => pairsOf x.2 (partners nullKeysMatch x.1 inner)

/-- The rows without a partner. -/
def unmatched (nullKeysMatch : Bool) (outer : List (Value × α)) (inner : List (Value × β)) :
    List β :=
  (inner.filter fun y => (partners nullKeysMatch y.1 outer).isEmpty).map (·.2)

/-- **The pairs of a full join**: those of the left join, then each inner row without a partner. -/
def fullPairs (nullKeysMatch : Bool) (outer : List (Value × α)) (inner : List (Value × β)) :
    List (Option α × Option β) :=
  leftPairs nullKeysMatch outer inner ++
    (unmatched nullKeysMatch outer inner).map fun b => (none, some b)

end

/-- A value equals the absent one only if it is the absent one. -/
theorem isNull_congr {k l : Value} (h : k == l) : k.isNull = l.isNull := by
  have same : k.same l = true := h
  cases k <;> cases l <;> first | rfl | simp [Value.same] at same

theorem keysMatch_comm (nullKeysMatch : Bool) (k l : Value) :
    keysMatch nullKeysMatch k l = keysMatch nullKeysMatch l k := by
  unfold keysMatch
  rw [BEq.comm (a := k)]
  cases h : l == k with
  | false => rfl
  | true => rw [isNull_congr h]

/-! ## Tables of rows -/

namespace KeyTable

/-- One more row stands last among those of its key. -/
theorem rows_add (table : KeyTable) (k row key : Value) :
    (table.add k row).rows key =
      if k == key then table.rows key ++ [row] else table.rows key := by
  induction table with
  | nil =>
      simp only [add, rows]
      split <;> rfl
  | cons entry table ih =>
      obtain ⟨l, ms⟩ := entry
      simp only [add]
      by_cases hlk : l == k
      · rw [if_pos hlk]
        have same : (l == key) = (k == key) := BEq.congr_left hlk
        simp only [rows, same]
        split <;> rfl
      · rw [if_neg hlk]
        simp only [rows, ih]
        by_cases hl : l == key
        · have other : ¬ (k == key) := by
            intro hk
            exact hlk (BEq.trans hl (BEq.symm hk))
          rw [if_pos hl, if_pos hl, if_neg other]
        · rw [if_neg hl, if_neg hl]

/-- **A table gives the rows that match a key**, in the order in which they came. -/
theorem rows_ofRows (nullKeysMatch : Bool) (keyed : List (Value × Value)) (key : Value) :
    (ofRows nullKeysMatch keyed).rows key = partners nullKeysMatch key keyed := by
  have gather : ∀ (xs : List (Value × Value)) (table : KeyTable),
      (xs.foldl (fun table x => table.add x.1 x.2) table).rows key =
        table.rows key ++ (xs.filter fun x => x.1 == key).map (·.2) := by
    intro xs
    induction xs with
    | nil => simp
    | cons x xs ih =>
        intro table
        rw [List.foldl_cons, ih, rows_add]
        by_cases hx : x.1 == key
        · rw [if_pos hx, List.filter_cons, if_pos hx]
          simp
        · rw [if_neg hx, List.filter_cons, if_neg hx]
  rw [show (ofRows nullKeysMatch keyed).rows key = _ from gather _ _, partners,
    List.filter_filter]
  simp only [rows, List.nil_append]
  congr 2
  funext x
  rw [keysMatch_comm, keysMatch]

end KeyTable

namespace Rows

/-! ## Groupings -/

/-- The groupings of an outer side. -/
def groupings (nullKeysMatch : Bool) (outer inner : List (Value × Value)) : List Value :=
  outer.map fun x => Grouping.value x.2 (partners nullKeysMatch x.1 inner)

/-- **Correlation** puts each outer row beside its partners. -/
theorem correlate_eq_ok {callDepth : Nat} {nullKeysMatch : Bool} {outerKey innerKey : Lambda}
    {outer inner : List Value} {keyedOuter keyedInner : List (Value × Value)} {n k l : Nat}
    (hinner : keyed callDepth innerKey inner n = .ok (keyedInner, k))
    (houter : keyed callDepth outerKey outer k = .ok (keyedOuter, l)) :
    correlate callDepth nullKeysMatch outerKey innerKey outer inner n =
      .ok (groupings nullKeysMatch keyedOuter keyedInner, l) := by
  refine RowM.bind_eq_ok_iff.mpr ⟨_, _, hinner, RowM.bind_eq_ok_iff.mpr ⟨_, _, houter, ?_⟩⟩
  simp only [KeyTable.rows_ofRows]
  rfl

/-- The join row of a pair. -/
def joinRow (pair : Option Value × Option Value) : Value :=
  JoinRow.value (pair.1.getD .null) (pair.2.getD .null)

/-- The join rows of one grouping. -/
theorem flattenOne_grouping (outer : Value) (members : List Value) :
    flattenOne (Grouping.value outer members) = .ok ((pairsOf outer members).map joinRow) := by
  cases members with
  | nil => rfl
  | cons m ms =>
      have rows : flattenOne (Grouping.value outer (m :: ms)) =
          .ok ((m :: ms).map (JoinRow.value outer)) := rfl
      rw [rows, pairsOf, List.map_map]
      · rfl
      · simp

theorem mapM_eq_ok {ε α β : Type} {f : α → Except ε β} {g : α → β} (xs : List α)
    (h : ∀ x, f x = .ok (g x)) : xs.mapM f = .ok (xs.map g) := by
  induction xs with
  | nil => rfl
  | cons x xs ih =>
      rw [List.mapM_cons, h, ih]
      rfl

/-- **The join rows of groupings** are those of the pairs of a left join. -/
theorem flatten_groupings (nullKeysMatch : Bool) (outer inner : List (Value × Value)) :
    flatten (groupings nullKeysMatch outer inner) =
      .ok ((leftPairs nullKeysMatch outer inner).map joinRow) := by
  have rows : (groupings nullKeysMatch outer inner).mapM flattenOne =
      .ok (outer.map fun x => (pairsOf x.2 (partners nullKeysMatch x.1 inner)).map joinRow) := by
    rw [groupings, List.mapM_map]
    exact mapM_eq_ok outer fun x => flattenOne_grouping _ _
  rw [flatten, rows, leftPairs, List.map_flatMap]
  rfl

end Rows

/-! ## What the pairs depend on -/

section

variable {α β γ δ : Type} {nullKeysMatch : Bool}

theorem partners_congr {k k' : Value} {xs xs' : List (Value × α)}
    (h : List.Forall₂ (fun x x' =>
      keysMatch nullKeysMatch k x.1 = keysMatch nullKeysMatch k' x'.1 ∧ x.2 = x'.2) xs xs') :
    partners nullKeysMatch k xs = partners nullKeysMatch k' xs' := by
  induction h with
  | nil => rfl
  | @cons x x' xs xs' hx _ ih =>
      unfold partners at ih ⊢
      rw [List.filter_cons, List.filter_cons, hx.1]
      split
      · rw [List.map_cons, List.map_cons, ih, hx.2]
      · exact ih

theorem unmatched_congr {outer outer' : List (Value × α)} {inner inner' : List (Value × β)}
    (h : List.Forall₂ (fun y y' =>
      partners nullKeysMatch y.1 outer = partners nullKeysMatch y'.1 outer' ∧ y.2 = y'.2)
      inner inner') :
    unmatched nullKeysMatch outer inner = unmatched nullKeysMatch outer' inner' := by
  induction h with
  | nil => rfl
  | @cons y y' ys ys' hy _ ih =>
      unfold unmatched at ih ⊢
      rw [List.filter_cons, List.filter_cons, hy.1]
      split
      · rw [List.map_cons, List.map_cons, ih, hy.2]
      · exact ih

/-- The rows of a list under their keys, each replaced by what a function makes of it. -/
def mapRows (f : α → γ) (xs : List (Value × α)) : List (Value × γ) :=
  xs.map fun x => (x.1, f x.2)

theorem partners_mapRows (f : α → γ) (k : Value) (xs : List (Value × α)) :
    partners nullKeysMatch k (mapRows f xs) = (partners nullKeysMatch k xs).map f := by
  simp only [partners, mapRows, List.filter_map, List.map_map]
  rfl

theorem pairsOf_map (f : α → γ) (g : β → δ) (a : α) (bs : List β) :
    pairsOf (f a) (bs.map g) = (pairsOf a bs).map (Prod.map (Option.map f) (Option.map g)) := by
  cases bs with
  | nil => rfl
  | cons b bs => simp [pairsOf]

/-- **The pairs of rows are the pairs of what stands for them.** -/
theorem leftPairs_mapRows (f : α → γ) (g : β → δ) (outer : List (Value × α))
    (inner : List (Value × β)) :
    leftPairs nullKeysMatch (mapRows f outer) (mapRows g inner) =
      (leftPairs nullKeysMatch outer inner).map (Prod.map (Option.map f) (Option.map g)) := by
  simp only [leftPairs, List.map_flatMap, mapRows, List.flatMap_map]
  refine List.flatMap_congr fun x _ => ?_
  rw [← pairsOf_map, ← partners_mapRows]
  rfl

/-- The rows without a partner are what stands for them without a partner. -/
theorem unmatched_mapRows (f : α → γ) (g : β → δ) (outer : List (Value × α))
    (inner : List (Value × β)) :
    unmatched nullKeysMatch (mapRows f outer) (mapRows g inner) =
      (unmatched nullKeysMatch outer inner).map g := by
  simp only [unmatched, partners_mapRows, List.isEmpty_map]
  simp only [mapRows, List.filter_map, List.map_map]
  rfl

/-! ## Positions -/

theorem mem_partners_iff {k : Value} {inner : List (Value × β)} {b : β} :
    b ∈ partners nullKeysMatch k inner ↔
      ∃ l, (l, b) ∈ inner ∧ keysMatch nullKeysMatch k l = true := by
  simp only [partners, List.mem_map, List.mem_filter]
  constructor
  · rintro ⟨⟨l, _⟩, ⟨hmem, hmatch⟩, rfl⟩
    exact ⟨l, hmem, hmatch⟩
  · rintro ⟨l, hmem, hmatch⟩
    exact ⟨(l, b), ⟨hmem, hmatch⟩, rfl⟩

theorem mem_pairsOf_iff {a a' : α} {bs : List β} {b : β} :
    (some a', some b) ∈ pairsOf a bs ↔ a' = a ∧ b ∈ bs := by
  cases bs with
  | nil => simp [pairsOf]
  | cons c cs =>
      simp only [pairsOf, List.mem_map, Prod.mk.injEq, Option.some.injEq]
      constructor
      · rintro ⟨x, hx, rfl, rfl⟩
        exact ⟨rfl, hx⟩
      · rintro ⟨rfl, hb⟩
        exact ⟨b, hb, rfl, rfl⟩

theorem fst_of_mem_pairsOf {a : α} {bs : List β} {pair : Option α × Option β}
    (h : pair ∈ pairsOf a bs) : pair.1 = some a := by
  cases bs with
  | nil =>
      rw [List.mem_singleton.mp h]
  | cons c cs =>
      obtain ⟨b, -, rfl⟩ := List.mem_map.mp h
      rfl

theorem exists_mem_pairsOf (a : α) (bs : List β) : ∃ b, (some a, b) ∈ pairsOf a bs := by
  cases bs with
  | nil => exact ⟨none, List.mem_singleton.mpr rfl⟩
  | cons c cs => exact ⟨some c, List.mem_map.mpr ⟨c, List.mem_cons_self, rfl⟩⟩

theorem nodup_pairsOf (a : α) {bs : List β} (h : bs.Nodup) : (pairsOf a bs).Nodup := by
  cases bs with
  | nil => simp [pairsOf]
  | cons c cs =>
      refine List.Nodup.map (fun x y hxy => ?_) h
      simpa using hxy

/-- **Matching rows are a pair**, and no others are. -/
theorem mem_fullPairs_iff {outer : List (Value × α)} {inner : List (Value × β)} {a : α} {b : β} :
    (some a, some b) ∈ fullPairs nullKeysMatch outer inner ↔
      ∃ k l, (k, a) ∈ outer ∧ (l, b) ∈ inner ∧ keysMatch nullKeysMatch k l = true := by
  simp only [fullPairs, leftPairs, List.mem_append, List.mem_flatMap, mem_pairsOf_iff,
    mem_partners_iff, List.mem_map, Prod.mk.injEq, reduceCtorEq, false_and, and_false,
    exists_false, or_false]
  constructor
  · rintro ⟨⟨k, _⟩, houter, rfl, l, hinner, hmatch⟩
    exact ⟨k, l, houter, hinner, hmatch⟩
  · rintro ⟨k, l, houter, hinner, hmatch⟩
    exact ⟨(k, a), houter, rfl, l, hinner, hmatch⟩

theorem exists_mem_fullPairs_outer {outer : List (Value × α)} (inner : List (Value × β)) {k : Value}
    {a : α} (h : (k, a) ∈ outer) : ∃ b, (some a, b) ∈ fullPairs nullKeysMatch outer inner := by
  obtain ⟨b, hb⟩ := exists_mem_pairsOf a (partners nullKeysMatch k inner)
  refine ⟨b, List.mem_append_left _ (List.mem_flatMap.mpr ⟨(k, a), h, hb⟩)⟩

theorem exists_mem_fullPairs_inner (outer : List (Value × α)) {inner : List (Value × β)} {l : Value}
    {b : β} (h : (l, b) ∈ inner) : ∃ a, (a, some b) ∈ fullPairs nullKeysMatch outer inner := by
  cases hpartners : partners nullKeysMatch l outer with
  | nil =>
      have alone : b ∈ unmatched nullKeysMatch outer inner := by
        refine List.mem_map.mpr ⟨(l, b), List.mem_filter.mpr ⟨h, ?_⟩, rfl⟩
        rw [hpartners]
        rfl
      exact ⟨none, List.mem_append_right _ (List.mem_map.mpr ⟨b, alone, rfl⟩)⟩
  | cons a as =>
      have partner : a ∈ partners nullKeysMatch l outer := hpartners ▸ List.mem_cons_self
      obtain ⟨k, houter, hmatch⟩ := mem_partners_iff.mp partner
      rw [keysMatch_comm] at hmatch
      exact ⟨some a, mem_fullPairs_iff.mpr ⟨k, l, houter, h, hmatch⟩⟩

/-- **No pair stands twice**, if no row does. -/
theorem nodup_fullPairs {outer : List (Value × α)} {inner : List (Value × β)}
    (houter : (outer.map (·.2)).Nodup) (hinner : (inner.map (·.2)).Nodup) :
    (fullPairs nullKeysMatch outer inner).Nodup := by
  have sub : ∀ p : Value × β → Bool, ((inner.filter p).map (·.2)).Nodup := fun p =>
    hinner.sublist (List.filter_sublist.map _)
  refine List.nodup_append.mpr ⟨?_, ?_, ?_⟩
  · refine List.nodup_flatMap.mpr ⟨fun x _ => nodup_pairsOf _ (sub _), ?_⟩
    refine (List.pairwise_map.mp houter).imp fun {x y} hxy pair hx hy => hxy ?_
    exact Option.some.inj ((fst_of_mem_pairsOf hx).symm.trans (fst_of_mem_pairsOf hy))
  · refine List.Nodup.map (fun x y hxy => ?_) (sub _)
    simpa using hxy
  · intro pair hleft pair' hright
    obtain ⟨x, -, hx⟩ := List.mem_flatMap.mp hleft
    obtain ⟨b, -, rfl⟩ := List.mem_map.mp hright
    rintro rfl
    cases fst_of_mem_pairsOf hx

end

/-- **Pairs of positions that join two sides completely**: no pair stands twice, the pairs of two
positions are those whose keys match, and every position of either side is in a pair. -/
structure JoinsAll (nullKeysMatch : Bool) (ks ls : List Value)
    (pairs : List (Option Nat × Option Nat)) : Prop where
  once : pairs.Nodup
  matching : ∀ i j, (some i, some j) ∈ pairs ↔ ∃ k l, ks[i]? = some k ∧ ls[j]? = some l ∧
    keysMatch nullKeysMatch k l = true
  outer : ∀ i < ks.length, ∃ j, (some i, j) ∈ pairs
  inner : ∀ j < ls.length, ∃ i, (i, some j) ∈ pairs

/-- **The pairs of a full join join both sides completely.** -/
theorem joinsAll_fullPairs (nullKeysMatch : Bool) (ks ls : List Value) :
    JoinsAll nullKeysMatch ks ls (fullPairs nullKeysMatch ks.zipIdx ls.zipIdx) where
  once := nodup_fullPairs (List.nodup_zipIdx_map_snd _) (List.nodup_zipIdx_map_snd _)
  matching i j := by
    rw [mem_fullPairs_iff]
    simp only [List.mem_zipIdx_iff_getElem?]
  outer i hi := by
    refine exists_mem_fullPairs_outer _ (k := ks[i]) ?_
    rw [List.mem_zipIdx_iff_getElem?]
    exact List.getElem?_eq_getElem hi
  inner j hj := by
    refine exists_mem_fullPairs_inner _ (l := ls[j]) ?_
    rw [List.mem_zipIdx_iff_getElem?]
    exact List.getElem?_eq_getElem hj

end RowQuery
