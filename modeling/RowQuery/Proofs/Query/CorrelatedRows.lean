import RowQuery.Proofs.Query.LeftJoinRows
import RowQuery.Proofs.Query.RowCalls

/-!
# The rows of a correlation

A correlation looks up the key of each outer row in a table of the inner ones.  What it finds there
is what a nested loop would find by comparing the key with all keys, in the order of the inner rows.

* `Rows.correlate_eq` — a correlation as a nested loop.
* `Rows.KeysHalt` — how the keys of a correlation halt.
* `Rows.correlate_eq_ok_iff`, `Rows.correlate_eq_error_iff` — how a correlation ends.
* `Rows.mem_group_comm` — being in one another's group.
* `Rows.keyed_anytime` — keys that come out once come out at any other time.
* `Rows.correlate_turned` — the correlation of the inner side with the outer one.
* **`Source.correlate_rows`** — correlations of sequences.
-/

namespace RowQuery

/-- **Alike keys make the same groups.** -/
theorem KeyedAlike.groupings_eq {w : Pairing} {nullKeysMatch : Bool}
    {outer outer' inner inner' : List (Value × Value)} (houter : KeyedAlike w outer outer')
    (hinner : KeyedAlike w inner inner') :
    Rows.groupings nullKeysMatch outer inner = Rows.groupings nullKeysMatch outer' inner' := by
  induction houter with
  | nil => rfl
  | cons hx _ ih =>
      unfold Rows.groupings at ih ⊢
      rw [List.map_cons, List.map_cons, ih, partners_eq hx.1 hinner, hx.2]

namespace Rows

variable {depth n m m' : Nat} {nullKeysMatch : Bool} {outerKey innerKey : Lambda}
  {outer inner : List Value}

/-! ## The nested loop -/

/-- **A correlation as a nested loop.** -/
theorem correlate_eq (depth : Nat) (nullKeysMatch : Bool) (outerKey innerKey : Lambda)
    (outer inner : List Value) :
    correlate depth nullKeysMatch outerKey innerKey outer inner = (do
      let ls ← project depth innerKey inner
      let ks ← project depth outerKey outer
      return groupings nullKeysMatch (ks.zip outer) (ls.zip inner)) := by
  simp only [correlate, KeyTable.rows_ofRows, keyed_eq, bind_assoc, pure_bind]
  rfl

/-- **How the keys of a correlation halt**: on the first inner row that has no key, or, where all
inner rows have keys, on the first outer one. -/
inductive KeysHalt (depth : Nat) (outerKey innerKey : Lambda) (outer inner : List Value) (n : Nat) :
    Halt → Prop
  | inner {h : Halt} (halts : EvalM.Halts (fun row => innerKey.call depth [row]) inner n h) :
      KeysHalt depth outerKey innerKey outer inner n h
  | outer {ls : List Value} {k : Nat} {h : Halt}
      (keys : EvalM.Runs (fun row => innerKey.call depth [row]) inner n ls k)
      (halts : EvalM.Halts (fun row => outerKey.call depth [row]) outer k h) :
      KeysHalt depth outerKey innerKey outer inner n h

/-- **A correlation groups rows** if all keys have values. -/
theorem correlate_eq_ok_iff {rows : List Value} :
    correlate depth nullKeysMatch outerKey innerKey outer inner n = .ok (rows, m) ↔
      ∃ ls k ks, EvalM.Runs (fun row => innerKey.call depth [row]) inner n ls k ∧
        EvalM.Runs (fun row => outerKey.call depth [row]) outer k ks m ∧
        rows = groupings nullKeysMatch (ks.zip outer) (ls.zip inner) := by
  rw [correlate_eq, RowM.bind_eq_ok_iff]
  simp only [RowM.map_eq_ok_iff, project_eq_ok_iff]
  constructor
  · rintro ⟨ls, k, first, ks, second, rfl⟩
    exact ⟨ls, k, ks, first, second, rfl⟩
  · rintro ⟨ls, k, ks, first, second, rfl⟩
    exact ⟨ls, k, first, ks, second, rfl⟩

/-- **It fails only as a key does.** -/
theorem correlate_eq_error_iff {e : QueryError} :
    correlate depth nullKeysMatch outerKey innerKey outer inner n = .error e ↔
      ∃ h, KeysHalt depth outerKey innerKey outer inner n h ∧ e = .ofHalt h := by
  rw [correlate_eq, RowM.bind_eq_error_iff]
  simp only [RowM.map_eq_error_iff, project_eq_ok_iff, project_eq_error_iff]
  constructor
  · rintro (⟨h, halts, rfl⟩ | ⟨ls, k, keys, h, halts, rfl⟩)
    · exact ⟨h, .inner halts, rfl⟩
    · exact ⟨h, .outer keys halts, rfl⟩
  · rintro ⟨h, halts, rfl⟩
    cases halts with
    | inner halts => exact .inl ⟨h, halts, rfl⟩
    | outer keys halts => exact .inr ⟨_, _, keys, h, halts, rfl⟩

/-! ## Groups -/

/-- A row is in the group of another one if their keys match. -/
theorem mem_group_iff {xs ys : List (Value × Value)} {a b : Value} :
    (∃ members, Grouping.value a members ∈ groupings nullKeysMatch xs ys ∧ b ∈ members) ↔
      ∃ k l, (k, a) ∈ xs ∧ (l, b) ∈ ys ∧ keysMatch nullKeysMatch k l = true := by
  constructor
  · rintro ⟨members, grouped, hb⟩
    obtain ⟨⟨k, _⟩, hx, same⟩ := List.mem_map.mp grouped
    cases same
    obtain ⟨l, hy, hmatch⟩ := mem_partners_iff.mp hb
    exact ⟨k, l, hx, hy, hmatch⟩
  · rintro ⟨k, l, hx, hy, hmatch⟩
    exact ⟨_, List.mem_map_of_mem hx, mem_partners_iff.mpr ⟨l, hy, hmatch⟩⟩

/-- **Being in one another's group.** -/
theorem mem_group_comm (nullKeysMatch : Bool) (xs ys : List (Value × Value)) (a b : Value) :
    (∃ members, Grouping.value a members ∈ groupings nullKeysMatch xs ys ∧ b ∈ members) ↔
      ∃ members, Grouping.value b members ∈ groupings nullKeysMatch ys xs ∧ a ∈ members := by
  rw [mem_group_iff, mem_group_iff, exists_comm]
  simp only [keysMatch_comm nullKeysMatch, and_left_comm]

/-! ## The correlation turned around -/

/-- **Keys that come out once come out at any other time.** -/
theorem keyed_anytime {key : Lambda} {rows : List Value} {xs : List (Value × Value)} {k : Nat}
    (known : ∀ row ∈ rows, row.Known n) (hm : n ≤ m) (hm' : n ≤ m')
    (run : keyed depth key rows m = .ok (xs, k)) :
    ∃ xs' k', keyed depth key rows m' = .ok (xs', k') := by
  cases run' : keyed depth key rows m' with
  | ok x => exact ⟨x.1, x.2, rfl⟩
  | error e =>
      obtain ⟨row, hrow, h, halts, -⟩ := exists_of_keyed_fails known hm' run'
      obtain ⟨e', fails⟩ := keyed_fails known hrow halts hm
      rw [run] at fails
      cases fails

/-- **The correlation of the inner side with the outer one** groups by the same keys, whenever it is
made. -/
theorem correlate_turned (nullKeysMatch : Bool) {xs ys : List (Value × Value)} {k l : Nat}
    (houter : ∀ row ∈ outer, row.Known n) (hinner : ∀ row ∈ inner, row.Known n) (hm : n ≤ m)
    (hm' : n ≤ m') (first : keyed depth innerKey inner m = .ok (ys, k))
    (second : keyed depth outerKey outer k = .ok (xs, l)) :
    ∃ l', correlate depth nullKeysMatch innerKey outerKey inner outer m' =
      .ok (groupings nullKeysMatch ys xs, l') := by
  -- the keys at the time at which all rows were there are those of both correlations
  obtain ⟨ys₀, k₀, first₀⟩ := keyed_anytime hinner hm le_rfl first
  have later : n ≤ k := hm.trans (le_of_keyed (fun row hrow => (hinner row hrow).mono hm) first)
  obtain ⟨xs₀, l₀, second₀⟩ := keyed_anytime houter later (le_of_keyed hinner first₀) second
  have settled := keysSettle houter hinner first₀ second₀
  obtain ⟨w, ys', xs', _, _, run, run', alikeInner, alikeOuter⟩ := settled.innerFirst m hm
  rw [first, Except.ok.injEq, Prod.mk.injEq] at run
  obtain ⟨rfl, rfl⟩ := run
  rw [second, Except.ok.injEq, Prod.mk.injEq] at run'
  obtain ⟨rfl, rfl⟩ := run'
  obtain ⟨w', xs', ys', _, _, run, run', alikeOuter', alikeInner'⟩ := settled.outerFirst m' hm'
  have same : groupings nullKeysMatch ys' xs' = groupings nullKeysMatch ys xs := by
    rw [← alikeInner'.groupings_eq alikeOuter', alikeInner.groupings_eq alikeOuter]
  exact ⟨_, same ▸ correlate_eq_ok run run'⟩

end Rows

/-! ## Sequences -/

namespace Source

variable {A B : Sequence} {outerKey innerKey : Lambda}

/-- **A correlation of sequences is the nested loop.**  It has a grouping for each outer row, in
order, with the inner rows whose keys match its own, in order.  Keys are evaluated on the inner rows
first, then on the outer ones, and the first that halts is the failure.  If the keys come out, they
come out in the correlation of the inner side with the outer one as well, in any session in which the
rows are there; it groups by the same keys, so rows are in one another's group. -/
theorem correlate_rows (ctx : QueryContext) (s : Session) {ty : Ty}
    (keys : Query.correlatedTy A.elementTy B.elementTy outerKey innerKey = .ok ty) :
    let runs := fun (key : Lambda) => EvalM.Runs fun row => key.call ctx.callDepth [row]
    let grouped := Rows.groupings ctx.join.nullKeysMatch
    (∀ result s', (correlate A B outerKey innerKey).exec ctx s = (.ok result, s') ↔
      ∃ ls k ks l, runs innerKey B.rows s.closures ls k ∧ runs outerKey A.rows k ks l ∧
        result = ⟨ty, grouped (ks.zip A.rows) (ls.zip B.rows)⟩ ∧ s' = { s with closures := l }) ∧
    (∀ e, ((correlate A B outerKey innerKey).exec ctx s).1 = .error e ↔
      ∃ h, Rows.KeysHalt ctx.callDepth outerKey innerKey A.rows B.rows s.closures h ∧
        e = .ofHalt h) ∧
    ∀ {n : Nat} {t : Session}, n ≤ s.closures → n ≤ t.closures →
      (∀ row ∈ A.rows, row.Known n) → (∀ row ∈ B.rows, row.Known n) →
      ∀ {ls ks : List Value} {k l : Nat}, runs innerKey B.rows s.closures ls k →
        runs outerKey A.rows k ks l →
        (∃ t', (correlate B A innerKey outerKey).exec ctx t =
          (.ok ⟨Grouping.ty B.elementTy A.elementTy,
            grouped (ls.zip B.rows) (ks.zip A.rows)⟩, t')) ∧
        ∀ a b, (∃ members, Grouping.value a members ∈ grouped (ks.zip A.rows) (ls.zip B.rows) ∧
            b ∈ members) ↔
          ∃ members, Grouping.value b members ∈ grouped (ls.zip B.rows) (ks.zip A.rows) ∧
            a ∈ members := by
  intro runs grouped
  have computes : Computes ctx (correlate A B outerKey innerKey) ty _ := Computes.correlate keys
  refine ⟨fun result s' => ?_, fun e => ?_, ?_⟩
  · rw [computes.exec_eq_ok_iff]
    constructor
    · rintro ⟨rows, l, run, rfl, rfl⟩
      obtain ⟨ls, k, ks, first, second, rfl⟩ := Rows.correlate_eq_ok_iff.mp run
      exact ⟨ls, k, ks, l, first, second, rfl, rfl⟩
    · rintro ⟨ls, k, ks, l, first, second, rfl, rfl⟩
      exact ⟨_, l, Rows.correlate_eq_ok_iff.mpr ⟨ls, k, ks, first, second, rfl⟩, rfl, rfl⟩
  · rw [computes.exec_eq_error_iff, Rows.correlate_eq_error_iff]
  · intro n t hs ht hA hB ls ks k l first second
    refine ⟨?_, Rows.mem_group_comm _ _ _⟩
    obtain rfl := Query.eq_grouping_of_correlatedTy keys
    obtain ⟨l', turned⟩ := Rows.correlate_turned ctx.join.nullKeysMatch hA hB hs ht
      (Rows.keyed_eq_ok_iff.mpr ⟨ls, first, rfl⟩) (Rows.keyed_eq_ok_iff.mpr ⟨ks, second, rfl⟩)
    exact ⟨_, (Computes.correlate (Query.correlatedTy_comm keys)).exec_eq_ok_iff.mpr
      ⟨_, l', turned, rfl, rfl⟩⟩

/-- The number 2 finds both of its equals, and each of them finds it; where a key halts, the first one
is the failure. -/
theorem correlate_rows_numbers :
    let outer := numbers [1, 2]
    let inner := numbers [2, 3, 2]
    let group := fun (n : Int64) (ms : List Value) => Grouping.value (.int n) ms
    (correlate outer inner numberKey numberKey).exec exactContext {} =
      (.ok ⟨Grouping.ty .int .int, [group 1 [], group 2 [.int 2, .int 2]]⟩, {}) ∧
    ((correlate outer (numbers [3, 0, 2]) numberKey sixthKey).exec exactContext {}).1 =
      .error (.eval .divisionByZero) ∧
    ∃ t', (correlate inner outer numberKey numberKey).exec exactContext {} =
      (.ok ⟨Grouping.ty .int .int, [group 2 [.int 2], group 3 [], group 2 [.int 2]]⟩, t') := by
  intro outer inner group
  have one : EvalM.Runs (fun row => numberKey.call exactContext.callDepth [row]) outer.rows 0
      [.int 1, .int 2] 0 := .cons rfl (.cons rfl .nil)
  have many : EvalM.Runs (fun row => numberKey.call exactContext.callDepth [row]) inner.rows 0
      [.int 2, .int 3, .int 2] 0 := .cons rfl (.cons rfl (.cons rfl .nil))
  have keys : Query.correlatedTy outer.elementTy inner.elementTy numberKey numberKey =
      .ok (Grouping.ty .int .int) := rfl
  obtain ⟨groups, -, turned⟩ := correlate_rows exactContext {} keys
  refine ⟨(groups _ _).mpr ⟨_, _, _, _, many, one, rfl, rfl⟩, ?_, ?_⟩
  · have sixths : Query.correlatedTy outer.elementTy (numbers [3, 0, 2]).elementTy numberKey
        sixthKey = .ok (Grouping.ty .int .int) := rfl
    obtain ⟨-, fails, -⟩ := correlate_rows exactContext {} sixths
    exact (fails _).mpr ⟨.fault .divisionByZero, .inner (.later rfl (.first rfl)), rfl⟩
  · exact (turned le_rfl le_rfl (known_numbers _ _) (known_numbers _ _) many one).1

end Source

end RowQuery
