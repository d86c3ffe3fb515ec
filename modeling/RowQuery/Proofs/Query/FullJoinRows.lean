import RowQuery.Proofs.Query.LeftJoinRows

/-!
# The rows of a full join

A full join evaluates its keys twice: first the inner ones and then the outer ones, for the left
join, and once more the other way round, for the inner rows that no outer row matches.  Closures of
the second time differ from those of the first, but the same keys match.

* **`Rows.unmatchedRows_settles`** — the second evaluation of the keys finds the same matches.
* `Rows.fullJoin_settles`, `Rows.fullJoin_eq_ok` — the rows of a full join, if its selectors have
  values.
* **`Source.fullOuterJoin_rows`** — the rows of a full join are those of a nested loop.
-/

namespace RowQuery

/-! ## Rows without a match -/

/-- The predicate that the group is empty has a value on groupings. -/
theorem Grouping.isEmpty_settles (id : UInt32) (O I : Ty) (depth : Nat) (outer : Value)
    (members : List Value) (n : Nat) :
    Settles n ((isEmpty id O I).onRow (depth + 1) (value outer members))
      (.bool members.isEmpty) := by
  intro m _
  refine ⟨0, ?_⟩
  have found : (Env.bind [] [⟨⟨id⟩, "g", Grouping.ty O I⟩] [value outer members]).lookup ⟨id⟩ =
      some (value outer members) := by
    simp [Env.bind]
  have call : (isEmpty id O I).call (depth + 1) [value outer members] m =
      .ok (.bool members.isEmpty, m) := by
    simp only [isEmpty, Lambda.call, Lambda.apply, List.length_singleton, Expr.callOf, Expr.eval,
      Expr.evalList, found]
    rfl
  rw [Lambda.onRow, RowM.ofEval, call]
  rfl

namespace Rows

variable {depth n₀ n₁ n₂ : Nat} {nullKeysMatch : Bool} {outerKey innerKey : Lambda}
  {outer inner : List Value} {keyedOuter keyedInner : List (Value × Value)}

theorem filter_settles {β : Type} {predicate : Lambda} {row : β → Value} {verdict : β → Bool}
    {n : Nat} (xs : List β)
    (h : ∀ x ∈ xs, Settles n (predicate.onRow depth (row x)) (.bool (verdict x))) :
    Settles n (filter depth predicate (xs.map row)) ((xs.filter verdict).map row) := by
  induction xs with
  | nil => exact Settles.pure []
  | cons x xs ih =>
      have rest := ih fun y hy => h y (List.mem_cons_of_mem x hy)
      have step := (h x List.mem_cons_self).bind (d := fun v => do
        let kept ← filter depth predicate (xs.map row)
        return if isTrue v then row x :: kept else kept) (rest.bind (Settles.pure _))
      have kept : (if isTrue (.bool (verdict x)) then row x :: (xs.filter verdict).map row
          else (xs.filter verdict).map row) = ((x :: xs).filter verdict).map row := by
        rw [List.filter_cons]
        cases verdict x <;> rfl
      rw [kept] at step
      exact step

/-- The join rows of empty groupings. -/
theorem flatten_emptyGroupings (rows : List Value) :
    flatten (rows.map fun b => Grouping.value b []) =
      .ok (rows.map fun b => JoinRow.value b .null) := by
  have each : (rows.map fun b => Grouping.value b []).mapM flattenOne =
      .ok (rows.map fun b => [JoinRow.value b .null]) := by
    rw [List.mapM_map]
    exact mapM_eq_ok rows fun b => flattenOne_grouping b []
  rw [flatten, each]
  show Except.ok (rows.map fun b => [JoinRow.value b .null]).flatten = _
  rw [← List.flatMap_def, ← List.map_eq_flatMap]

/-- **The inner rows that no outer row matches** are found by the second evaluation of the keys,
whenever that takes place. -/
theorem unmatchedRows_settles (id : UInt32) (O I : Ty)
    (keys : KeysSettle depth n₀ outerKey innerKey outer inner keyedOuter keyedInner) :
    Settles n₀ (unmatchedRows depth nullKeysMatch outerKey innerKey (Grouping.isEmpty id O I)
        outer inner)
      ((unmatched nullKeysMatch keyedOuter keyedInner).map fun b => JoinRow.value b .null) := by
  intro m hm
  obtain ⟨w, keyedOuter', keyedInner', k, l, run, run', alikeOuter, alikeInner⟩ :=
    keys.outerFirst m hm
  have verdicts : ∀ y ∈ keyedInner', Settles (m + k + l)
      ((Grouping.isEmpty id O I).onRow depth
        (Grouping.value y.2 (partners nullKeysMatch y.1 keyedOuter')))
      (.bool (partners nullKeysMatch y.1 keyedOuter').isEmpty) := by
    intro y hy
    obtain ⟨d, rfl⟩ := depth_ne_zero_of_keyed run' (List.ne_nil_of_mem hy)
    exact Grouping.isEmpty_settles id O I d y.2 _ _
  have empty : (keyedInner'.filter fun y => (partners nullKeysMatch y.1 keyedOuter').isEmpty).map
        (fun y => Grouping.value y.2 (partners nullKeysMatch y.1 keyedOuter')) =
      (unmatched nullKeysMatch keyedOuter' keyedInner').map fun b => Grouping.value b [] := by
    rw [unmatched, List.map_map]
    refine List.map_congr_left fun y hy => ?_
    have none := (List.mem_filter.mp hy).2
    rw [List.isEmpty_iff] at none
    rw [none]
    rfl
  have rest := (filter_settles keyedInner' verdicts).bind (d := fun kept =>
    RowM.ofExcept (flatten kept))
    (Settles.ofExcept ((congrArg flatten empty).trans (flatten_emptyGroupings _)))
  obtain ⟨j, rest⟩ := rest (m + k + l) le_rfl
  refine ⟨k + l + j, ?_⟩
  rw [alikeOuter.unmatched_eq alikeInner, unmatchedRows, RowM.bind_eq_ok_iff]
  refine ⟨_, _, correlate_eq_ok run run', ?_⟩
  rw [← Nat.add_assoc, ← Nat.add_assoc]
  exact rest

/-- What follows the left half of a full join, if the selector of the right half has values on the
rows that are left. -/
theorem rest_settles {right : Lambda} {us : List Value} (id : UInt32) (O I : Ty) (vs : List Value)
    (keys : KeysSettle depth n₀ outerKey innerKey outer inner keyedOuter keyedInner) {n : Nat}
    (later : n₀ ≤ n)
    (hright : List.Forall₂ (fun b u => Settles n (right.onRow depth (JoinRow.value b .null)) u)
      (unmatched nullKeysMatch keyedOuter keyedInner) us) :
    Settles n (do
      let alone ← unmatchedRows depth nullKeysMatch outerKey innerKey (Grouping.isEmpty id O I)
        outer inner
      return vs ++ (← project depth right alone)) (vs ++ us) := by
  refine ((unmatchedRows_settles id O I keys).mono later).bind ?_
  refine (Settles.mapM ?_).bind (Settles.pure _)
  rwa [List.forall₂_map_left_iff]

/-- **The rows of a full join** at any later time. -/
theorem fullJoin_settles {left right : Lambda} {vs us : List Value} (id : UInt32) (O I : Ty)
    (keys : KeysSettle depth n₀ outerKey innerKey outer inner keyedOuter keyedInner)
    (hleft : List.Forall₂ (fun pair v => Settles n₀ (left.onRow depth (joinRow pair)) v)
      (leftPairs nullKeysMatch keyedOuter keyedInner) vs)
    (hright : List.Forall₂ (fun b u => Settles n₀ (right.onRow depth (JoinRow.value b .null)) u)
      (unmatched nullKeysMatch keyedOuter keyedInner) us) :
    Settles n₀ (fullJoin depth nullKeysMatch outerKey innerKey left (Grouping.isEmpty id O I) right
      outer inner) (vs ++ us) :=
  (leftJoin_settles keys hleft).bind (rest_settles id O I vs keys le_rfl hright)

/-- **The rows of a full join**, if the selectors of its halves have values on the pairs once the
keys are evaluated. -/
theorem fullJoin_eq_ok {left right : Lambda} {vs us : List Value} (id : UInt32) (O I : Ty)
    (houter : ∀ row ∈ outer, row.Known n₀) (hinner : ∀ row ∈ inner, row.Known n₀)
    (first : keyed depth innerKey inner n₀ = .ok (keyedInner, n₁))
    (second : keyed depth outerKey outer n₁ = .ok (keyedOuter, n₂))
    (hleft : List.Forall₂ (fun pair v => Settles n₂ (left.onRow depth (joinRow pair)) v)
      (leftPairs nullKeysMatch keyedOuter keyedInner) vs)
    (hright : List.Forall₂ (fun b u => Settles n₂ (right.onRow depth (JoinRow.value b .null)) u)
      (unmatched nullKeysMatch keyedOuter keyedInner) us) :
    ∃ k, fullJoin depth nullKeysMatch outerKey innerKey left (Grouping.isEmpty id O I) right
      outer inner n₀ = .ok (vs ++ us, n₂ + k) := by
  have later : n₀ ≤ n₂ := by
    have h₁ := le_of_keyed hinner first
    exact h₁.trans (le_of_keyed (fun row hrow => (houter row hrow).mono h₁) second)
  have rest := rest_settles id O I vs (keysSettle houter hinner first second) later hright
  obtain ⟨k, selected⟩ := Settles.mapM hleft n₂ le_rfl
  obtain ⟨l, rest⟩ := rest (n₂ + k) (Nat.le_add_right n₂ k)
  refine ⟨k + l, ?_⟩
  rw [fullJoin, leftJoin_eq, RowM.bind_eq_ok_iff, ← Nat.add_assoc]
  refine ⟨vs, n₂ + k, RowM.bind_eq_ok_iff.mpr ⟨_, _, first, ?_⟩, rest⟩
  exact RowM.bind_eq_ok_iff.mpr ⟨_, _, second, selected⟩

end Rows

/-! ## Rows by position -/

/-- The row at a position; absent without a position. -/
def Rows.rowAt (rows : List Value) (i : Option Nat) : Value := (i.bind fun i => rows[i]?).getD .null

/-- Rows that are there are there at every position. -/
theorem Rows.known_rowAt {rows : List Value} {n : Nat} (h : ∀ row ∈ rows, row.Known n)
    (i : Option Nat) : (rowAt rows i).Known n := by
  have absent : Value.null.Known n := fun _ h => nomatch h
  cases i with
  | none => exact absent
  | some i =>
      simp only [rowAt, Option.bind_some]
      cases found : rows[i]? with
      | none => exact absent
      | some row => exact h row (List.mem_of_getElem? found)

/-- Positions stand for the rows beside their keys. -/
theorem mapRows_zipIdx {xs : List (Value × Value)} {rows : List Value} (h : xs.map (·.2) = rows) :
    mapRows (fun i => Rows.rowAt rows (some i)) (xs.map (·.1)).zipIdx = xs := by
  subst h
  refine List.ext_getElem (by simp [mapRows]) fun i _ hi => ?_
  simp [mapRows, Rows.rowAt, List.getElem?_eq_getElem hi]

/-- What is related to a composed list is composed of what is related to the parts. -/
theorem exists_append_of_forall₂ {α β : Type} {R : α → β → Prop} {xs ys : List α} {zs : List β}
    (h : List.Forall₂ R (xs ++ ys) zs) :
    ∃ us vs, zs = us ++ vs ∧ List.Forall₂ R xs us ∧ List.Forall₂ R ys vs := by
  induction xs generalizing zs with
  | nil => exact ⟨[], zs, rfl, .nil, h⟩
  | cons x xs ih =>
      obtain ⟨z, rest, hz, hrest, rfl⟩ := List.forall₂_cons_left_iff.mp h
      obtain ⟨us, vs, rfl, hus, hvs⟩ := ih hrest
      exact ⟨z :: us, vs, rfl, .cons hz hus, hvs⟩

namespace Source

variable {ctx : QueryContext} {s : Session} {A B : Sequence} {outerKey innerKey selector : Lambda}
  {p q : Param}

/-- The selector of the left half has the values of the selector on the pairs of the left join. -/
private theorem leftHalf_settles {n n₁ n₂ : Nat} {keyedOuter keyedInner : List (Value × Value)}
    {vs : List Value} (sel : selector.TakesBothOptional p q A.elementTy B.elementTy) {id : UInt32}
    (fresh : ⟨id⟩ ∉ selector.body.declared) (hA : ∀ row ∈ A.rows, row.Known n₂)
    (hB : ∀ row ∈ B.rows, row.Known n₂)
    (first : Rows.keyed ctx.callDepth innerKey B.rows n = .ok (keyedInner, n₁))
    (second : Rows.keyed ctx.callDepth outerKey A.rows n₁ = .ok (keyedOuter, n₂))
    (values : List.Forall₂ (fun pair v => v.ClosureFree ∧ ∃ m, selector.call ctx.callDepth
        [Rows.rowAt A.rows pair.1, Rows.rowAt B.rows pair.2] n₂ = .ok (v, m))
      (leftPairs ctx.join.nullKeysMatch (keyedOuter.map (·.1)).zipIdx
        (keyedInner.map (·.1)).zipIdx) vs) :
    List.Forall₂ (fun pair v => Settles n₂
      ((halfSelector ctx id A.elementTy B.elementTy selector).onRow ctx.callDepth
        (Rows.joinRow pair)) v)
      (leftPairs ctx.join.nullKeysMatch keyedOuter keyedInner) vs := by
  rw [← mapRows_zipIdx (Rows.keyed_rows first), ← mapRows_zipIdx (Rows.keyed_rows second),
    leftPairs_mapRows, List.forall₂_map_left_iff]
  refine values.imp fun pair v hv => ?_
  obtain ⟨free, m, call⟩ := hv
  have members : Rows.joinRow (pair.map (Option.map fun i => Rows.rowAt A.rows (some i))
      (Option.map fun i => Rows.rowAt B.rows (some i))) =
      JoinRow.value (Rows.rowAt A.rows pair.1) (Rows.rowAt B.rows pair.2) := by
    rcases pair with ⟨_ | i, _ | j⟩ <;> rfl
  rw [members]
  exact halfSelector_settles ctx (sel.takesPair rfl) fresh (Rows.known_rowAt hA _)
    (Rows.known_rowAt hB _) call free

/-- The selector of the right half has the values of the selector on the rows without a match. -/
private theorem rightHalf_settles {n n₁ n₂ : Nat} {keyedOuter keyedInner : List (Value × Value)}
    {us : List Value} (sel : selector.TakesBothOptional p q A.elementTy B.elementTy) {id : UInt32}
    (fresh : ⟨id⟩ ∉ selector.body.declared) (hA : ∀ row ∈ A.rows, row.Known n₂)
    (hB : ∀ row ∈ B.rows, row.Known n₂)
    (first : Rows.keyed ctx.callDepth innerKey B.rows n = .ok (keyedInner, n₁))
    (second : Rows.keyed ctx.callDepth outerKey A.rows n₁ = .ok (keyedOuter, n₂))
    (values : List.Forall₂ (fun pair v => v.ClosureFree ∧ ∃ m, selector.call ctx.callDepth
        [Rows.rowAt A.rows pair.1, Rows.rowAt B.rows pair.2] n₂ = .ok (v, m))
      ((unmatched ctx.join.nullKeysMatch (keyedOuter.map (·.1)).zipIdx
        (keyedInner.map (·.1)).zipIdx).map fun j => (none, some j)) us) :
    List.Forall₂ (fun b u => Settles n₂
      ((halfSelector ctx id B.elementTy A.elementTy ⟨[q, p], selector.body⟩).onRow ctx.callDepth
        (JoinRow.value b .null)) u)
      (unmatched ctx.join.nullKeysMatch keyedOuter keyedInner) us := by
  rw [← mapRows_zipIdx (Rows.keyed_rows first), ← mapRows_zipIdx (Rows.keyed_rows second),
    unmatched_mapRows, List.forall₂_map_left_iff]
  rw [List.forall₂_map_left_iff] at values
  refine values.imp fun j u hu => ?_
  obtain ⟨free, m, call⟩ := hu
  have knownA := Rows.known_rowAt hA none
  have knownB := Rows.known_rowAt hB (some j)
  obtain ⟨l, switched⟩ := Lambda.call_switch sel.params_eq sel.distinct knownA knownB call free
  exact halfSelector_settles ctx (sel.switch.takesPair rfl) fresh knownB knownA switched free

/-- **A full join of sequences is the nested loop.**  It is composed whatever the element types
are, and fails only in evaluating its functions on rows.  If these have values, the rows are those
of the selector on the pairs of the nested loop, in order, and the pairs join both sides
completely. -/
theorem fullOuterJoin_rows (made : ctx.Made) (mode : ctx.splitter.options.matchMode = .assignable)
    (strategy : ctx.join.fullJoin = .antiJoin) (reached : ctx.splitter.Reached s.split) {ty : Ty}
    (keys : Query.correlatedTy A.elementTy B.elementTy outerKey innerKey = .ok ty)
    (sel : selector.TakesBothOptional p q A.elementTy B.elementTy)
    (fresh : ⟨s.split.ids.next⟩ ∉ selector.body.declared)
    (fresh' : ⟨s.split.ids.next + 2⟩ ∉ selector.body.declared) :
    (∀ e, ((fullOuterJoin A B outerKey innerKey selector).exec ctx s).1 = .error e →
      e.IsEvaluation) ∧
    ∀ {keyedOuter keyedInner : List (Value × Value)} {n₁ n₂ : Nat} {results : List Value},
      (∀ row ∈ A.rows, row.Known s.closures) → (∀ row ∈ B.rows, row.Known s.closures) →
      Rows.keyed ctx.callDepth innerKey B.rows s.closures = .ok (keyedInner, n₁) →
      Rows.keyed ctx.callDepth outerKey A.rows n₁ = .ok (keyedOuter, n₂) →
      List.Forall₂ (fun pair v => v.ClosureFree ∧ ∃ m, selector.call ctx.callDepth
          [Rows.rowAt A.rows pair.1, Rows.rowAt B.rows pair.2] n₂ = .ok (v, m))
        (fullPairs ctx.join.nullKeysMatch (keyedOuter.map (·.1)).zipIdx
          (keyedInner.map (·.1)).zipIdx) results →
      (∃ resultTy s', (fullOuterJoin A B outerKey innerKey selector).exec ctx s =
        (.ok ⟨resultTy, results⟩, s')) ∧
      JoinsAll ctx.join.nullKeysMatch (keyedOuter.map (·.1)) (keyedInner.map (·.1))
        (fullPairs ctx.join.nullKeysMatch (keyedOuter.map (·.1)).zipIdx
          (keyedInner.map (·.1)).zipIdx) := by
  obtain rfl := Query.eq_grouping_of_correlatedTy keys
  have yields : Yields ctx s.split.ids.next _ _ _ _ :=
    yields_fullOuterJoin made mode strategy keys sel
  refine ⟨fun e he => ?_, ?_⟩
  · refine yields.isEvaluation (Rows.fullJoin_ends _ _ _ _ _ _ _) ⟨reached.remembers, rfl⟩ he
  intro keyedOuter keyedInner n₁ n₂ results hA hB first second values
  refine ⟨?_, joinsAll_fullPairs _ _ _⟩
  rw [fullPairs] at values
  obtain ⟨vs, us, rfl, hvs, hus⟩ := exists_append_of_forall₂ values
  have known : s.closures ≤ n₂ := by
    have h₁ := Rows.le_of_keyed hB first
    exact h₁.trans (Rows.le_of_keyed (fun row hrow => (hA row hrow).mono h₁) second)
  have knownA : ∀ row ∈ A.rows, row.Known n₂ := fun row hrow => (hA row hrow).mono known
  have knownB : ∀ row ∈ B.rows, row.Known n₂ := fun row hrow => (hB row hrow).mono known
  have fresh' : ⟨s.split.ids.next + 1 + 1⟩ ∉ selector.body.declared := by
    rw [UInt32.add_assoc]
    exact fresh'
  have left := leftHalf_settles sel fresh knownA knownB first second hvs
  have right := rightHalf_settles sel fresh' knownA knownB first second hus
  obtain ⟨k, rows⟩ := Rows.fullJoin_eq_ok (s.split.ids.next + 1) B.elementTy A.elementTy hA hB first
    second left right
  have run := yields s ⟨reached.remembers, rfl⟩
  rw [rows] at run
  obtain ⟨s', run, -⟩ := run
  exact ⟨_, s', run⟩

/-- A context with the options that hold unless others are given. -/
def plainContext : QueryContext where
  splitter := { schema := ⟨[Grouping.definition, JoinRow.definition]⟩ }
  callDepth := 8

/-- Whole numbers that may be absent as a sequence. -/
def optionalNumbers (rows : List Value) : Sequence := ⟨Ty.int.option, rows⟩

/-- `|n: Option<Int>| n`. -/
def optionalKey : Lambda :=
  let n : Param := ⟨⟨100⟩, "n", Ty.int.option⟩
  ⟨[n], .param n⟩

/-- `|a: Option<Int>, b: Option<Int>| (a, b)`. -/
def optionalPair : Lambda :=
  let a : Param := ⟨⟨101⟩, "a", Ty.int.option⟩
  let b : Param := ⟨⟨102⟩, "b", Ty.int.option⟩
  ⟨[a, b], .tuple [.param a, .param b]⟩

/-- Two equal outer numbers are joined with one inner number; absent numbers match nothing. -/
theorem fullOuterJoin_optionalNumbers :
    ∃ resultTy s', (fullOuterJoin (optionalNumbers [.null, .int 1, .int 1])
        (optionalNumbers [.int 1, .null, .int 2]) optionalKey optionalKey optionalPair).exec
          plainContext {} =
      (.ok ⟨resultTy, [.tuple [.null, .null], .tuple [.int 1, .int 1], .tuple [.int 1, .int 1],
        .tuple [.null, .null], .tuple [.null, .int 2]]⟩, s') := by
  have plain : ∀ rows : List Value, rows ⊆ [.null, .int 1, .int 2] → ∀ row ∈ rows, row.Known 0 := by
    intro rows sub row hrow
    have mem := sub hrow
    simp only [List.mem_cons, List.not_mem_nil, or_false] at mem
    rcases mem with rfl | rfl | rfl <;> exact fun _ h => nomatch h
  refine ((fullOuterJoin_rows ⟨{}, {}, 8, rfl⟩ rfl rfl (.start {}) rfl
    ⟨rfl, by decide, by decide, rfl, rfl⟩ (by decide) (by decide)).2
    (plain [.null, .int 1, .int 1] (by simp)) (plain [.int 1, .null, .int 2] (by simp)) rfl rfl ?_).1
  exact .cons ⟨rfl, _, rfl⟩ (.cons ⟨rfl, _, rfl⟩ (.cons ⟨rfl, _, rfl⟩ (.cons ⟨rfl, _, rfl⟩
    (.cons ⟨rfl, _, rfl⟩ .nil))))

end Source

end RowQuery
