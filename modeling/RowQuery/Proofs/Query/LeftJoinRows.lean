import RowQuery.Proofs.Query.SettledKeys

/-!
# The rows of a left join

A left join is a nested loop: it evaluates the inner keys, then the outer ones, and then its
selector on each pair of rows.  It fails if one of these evaluations does, and for no other reason.

* `Lambda.callPair` — the value of a selector on a pair, absent where a side is.
* `Rows.leftJoin_eq` — a left join as a nested loop.
* `Rows.leftJoin_settles` — its rows, if its functions have values.
* `Rows.LeftJoinHalts` — how the functions of a left join halt.
* `Rows.exists_of_leftJoin_fails`, `Rows.leftJoin_fails` — a left join fails exactly if one does.
* **`Source.leftOuterJoin_rows`** — left joins of sequences.
-/

namespace RowQuery

/-- **The value of a function of two parameters on a pair**, absent where a side is. -/
def Lambda.callPair (f : Lambda) (depth : Nat) (pair : Option Value × Option Value) :
    EvalM Value :=
  f.call depth [pair.1.getD .null, pair.2.getD .null]

/-- Both rows of a pair are rows of the sides. -/
theorem known_of_mem_fullPairs {nullKeysMatch : Bool} {keyedOuter keyedInner : List (Value × Value)}
    {n : Nat} (houter : ∀ x ∈ keyedOuter, x.2.Known n) (hinner : ∀ y ∈ keyedInner, y.2.Known n)
    {pair : Option Value × Option Value}
    (h : pair ∈ fullPairs nullKeysMatch keyedOuter keyedInner) :
    (pair.1.getD .null).Known n ∧ (pair.2.getD .null).Known n := by
  have absent : Value.null.Known n := fun _ hi => nomatch hi
  have partner : ∀ {k b}, b ∈ partners nullKeysMatch k keyedInner → b.Known n := by
    intro k b hb
    obtain ⟨l, hmem, -⟩ := mem_partners_iff.mp hb
    exact hinner _ hmem
  rcases List.mem_append.mp h with h | h
  · obtain ⟨x, hx, hpair⟩ := List.mem_flatMap.mp h
    have left := houter x hx
    cases hbs : partners nullKeysMatch x.1 keyedInner with
    | nil =>
        rw [hbs] at hpair
        obtain rfl := List.mem_singleton.mp hpair
        exact ⟨left, absent⟩
    | cons b bs =>
        rw [hbs] at hpair
        obtain ⟨c, hc, rfl⟩ := List.mem_map.mp hpair
        exact ⟨left, partner (hbs ▸ hc)⟩
  · obtain ⟨b, hb, rfl⟩ := List.mem_map.mp h
    obtain ⟨y, hy, rfl⟩ := List.mem_map.mp hb
    exact ⟨absent, hinner y (List.mem_filter.mp hy).1⟩

namespace Rows

variable {depth n n₁ n₂ : Nat} {nullKeysMatch : Bool} {outerKey innerKey selector left : Lambda}
  {outer inner : List Value} {keyedOuter keyedInner : List (Value × Value)}

/-- **A left join as a nested loop.** -/
theorem leftJoin_eq (depth : Nat) (nullKeysMatch : Bool) (outerKey innerKey left : Lambda)
    (outer inner : List Value) :
    leftJoin depth nullKeysMatch outerKey innerKey left outer inner = (do
      let keyedInner ← keyed depth innerKey inner
      let keyedOuter ← keyed depth outerKey outer
      (leftPairs nullKeysMatch keyedOuter keyedInner).mapM fun pair =>
        left.onRow depth (joinRow pair)) := by
  have flat : ∀ xs ys, RowM.ofExcept (flatten (groupings nullKeysMatch xs ys)) =
      pure ((leftPairs nullKeysMatch xs ys).map joinRow) := by
    intro xs ys
    rw [flatten_groupings]
    rfl
  simp only [leftJoin, joinRows, correlate, KeyTable.rows_ofRows, bind_assoc, pure_bind]
  refine congrArg _ (funext fun ys => congrArg _ (funext fun xs => ?_))
  have same : (xs.map fun x => Grouping.value x.2 (partners nullKeysMatch x.1 ys)) =
      groupings nullKeysMatch xs ys := rfl
  rw [same, flat, pure_bind, project, List.mapM_map]
  rfl

/-- **The rows of a left join**, if its keys settle and its selector has values on the pairs. -/
theorem leftJoin_settles {vs : List Value}
    (keys : KeysSettle depth n outerKey innerKey outer inner keyedOuter keyedInner)
    (values : List.Forall₂ (fun pair v => Settles n (left.onRow depth (joinRow pair)) v)
      (leftPairs nullKeysMatch keyedOuter keyedInner) vs) :
    Settles n (leftJoin depth nullKeysMatch outerKey innerKey left outer inner) vs := by
  intro m hm
  obtain ⟨w, keyedInner', keyedOuter', k, l, run, run', alikeInner, alikeOuter⟩ :=
    keys.innerFirst m hm
  have later : n ≤ m + k + l := by omega
  obtain ⟨j, rows⟩ := Settles.mapM values (m + k + l) later
  refine ⟨k + l + j, ?_⟩
  rw [leftJoin_eq, ← Nat.add_assoc, ← Nat.add_assoc]
  refine RowM.bind_eq_ok_iff.mpr ⟨_, _, run, RowM.bind_eq_ok_iff.mpr ⟨_, _, run', ?_⟩⟩
  rw [← alikeOuter.leftPairs_eq alikeInner]
  exact rows

/-! ## Failures -/

/-- **How the functions of a left join halt**: a key on a row, or, where all keys have values, the
selector on a pair. -/
inductive LeftJoinHalts (depth : Nat) (nullKeysMatch : Bool) (outerKey innerKey selector : Lambda)
    (outer inner : List Value) (n : Nat) : Halt → Prop
  | innerKey {row : Value} {h : Halt} (mem : row ∈ inner)
      (halts : innerKey.call depth [row] n = .error h) :
      LeftJoinHalts depth nullKeysMatch outerKey innerKey selector outer inner n h
  | outerKey {row : Value} {h : Halt} (mem : row ∈ outer)
      (halts : outerKey.call depth [row] n = .error h) :
      LeftJoinHalts depth nullKeysMatch outerKey innerKey selector outer inner n h
  | selector {keyedOuter keyedInner : List (Value × Value)} {n₁ n₂ : Nat}
      {pair : Option Value × Option Value} {h : Halt}
      (first : keyed depth innerKey inner n = .ok (keyedInner, n₁))
      (second : keyed depth outerKey outer n₁ = .ok (keyedOuter, n₂))
      (mem : pair ∈ leftPairs nullKeysMatch keyedOuter keyedInner)
      (halts : selector.callPair depth pair n = .error h) :
      LeftJoinHalts depth nullKeysMatch outerKey innerKey selector outer inner n h

/-- A key fails on a list of rows if it fails on one of them. -/
theorem keyed_fails {key : Lambda} {rows : List Value} (hrows : ∀ row ∈ rows, row.Known n)
    {row : Value} (hrow : row ∈ rows) {h : Halt} (halts : key.call depth [row] n = .error h) {m : Nat}
    (hm : n ≤ m) : ∃ e, keyed depth key rows m = .error e := by
  have fails : key.onRow depth row n = .error (.ofHalt h) :=
    RowM.ofEval_eq_error_iff.mpr ⟨h, halts, rfl⟩
  refine EndsAlike.mapM_fails (fun row hrow => ?_) hm hrow fails
  exact (key.onRow_endsAlike depth (hrows row hrow)).mapRight _

/-- It fails only as it does on one of them. -/
theorem exists_of_keyed_fails {key : Lambda} {rows : List Value}
    (hrows : ∀ row ∈ rows, row.Known n) {m : Nat} (hm : n ≤ m) {e : QueryError}
    (fails : keyed depth key rows m = .error e) :
    ∃ row ∈ rows, ∃ h, key.call depth [row] n = .error h ∧ e = .ofHalt h := by
  obtain ⟨row, hrow, fails⟩ := EndsAlike.exists_of_mapM_fails (f := key.onRow depth)
    (fun row hrow => (key.onRow_endsAlike depth (hrows row hrow)).mapRight _) hm fails
  exact ⟨row, hrow, RowM.ofEval_eq_error_iff.mp fails⟩

section

variable (form : ∀ {a b : Value}, a.Known n → b.Known n →
    EndsAlike n (.ofEval (selector.call depth [a, b])) (left.onRow depth (JoinRow.value a b)))
  (houter : ∀ row ∈ outer, row.Known n) (hinner : ∀ row ∈ inner, row.Known n)

include form houter hinner

/-- On the pairs of a left join, the selector and its form on join rows end alike. -/
private theorem pairs_endAlike
    (first : keyed depth innerKey inner n = .ok (keyedInner, n₁))
    (second : keyed depth outerKey outer n₁ = .ok (keyedOuter, n₂)) :
    ∀ pair ∈ leftPairs nullKeysMatch keyedOuter keyedInner,
      EndsAlike n (.ofEval (selector.callPair depth pair)) (left.onRow depth (joinRow pair)) := by
  intro pair hpair
  have known := known_of_mem_fullPairs (known_of_keyed houter second) (known_of_keyed hinner first)
    (List.mem_append_left _ hpair)
  exact form known.1 known.2

/-- **A left join fails only as one of its functions does.** -/
theorem exists_of_leftJoin_fails {e : QueryError}
    (fails : leftJoin depth nullKeysMatch outerKey innerKey left outer inner n = .error e) :
    ∃ h, LeftJoinHalts depth nullKeysMatch outerKey innerKey selector outer inner n h ∧
      e = .ofHalt h := by
  simp only [leftJoin_eq, RowM.bind_eq_error_iff] at fails
  rcases fails with fails | ⟨keyedInner, n₁, first, fails | ⟨keyedOuter, n₂, second, fails⟩⟩
  · obtain ⟨row, hrow, h, halts, rfl⟩ := exists_of_keyed_fails hinner le_rfl fails
    exact ⟨h, .innerKey hrow halts, rfl⟩
  · obtain ⟨row, hrow, h, halts, rfl⟩ := exists_of_keyed_fails houter (le_of_keyed hinner first) fails
    exact ⟨h, .outerKey hrow halts, rfl⟩
  · have h₁ := le_of_keyed hinner first
    have h₂ := le_of_keyed (fun row hrow => (houter row hrow).mono h₁) second
    obtain ⟨pair, hpair, fails⟩ := EndsAlike.exists_of_mapM_fails
      (pairs_endAlike form houter hinner first second) (h₁.trans h₂) fails
    obtain ⟨h, halts, rfl⟩ := RowM.ofEval_eq_error_iff.mp fails
    exact ⟨h, .selector first second hpair halts, rfl⟩

/-- **A left join fails if one of its functions does.** -/
theorem leftJoin_fails {h : Halt}
    (halts : LeftJoinHalts depth nullKeysMatch outerKey innerKey selector outer inner n h) :
    ∃ e, leftJoin depth nullKeysMatch outerKey innerKey left outer inner n = .error e := by
  cases run : leftJoin depth nullKeysMatch outerKey innerKey left outer inner n with
  | error e => exact ⟨e, rfl⟩
  | ok x =>
      exfalso
      rw [leftJoin_eq] at run
      obtain ⟨keyedInner, n₁, first, run⟩ := RowM.bind_eq_ok_iff.mp run
      obtain ⟨keyedOuter, n₂, second, run⟩ := RowM.bind_eq_ok_iff.mp run
      have h₁ := le_of_keyed hinner first
      have h₂ := le_of_keyed (fun row hrow => (houter row hrow).mono h₁) second
      cases halts with
      | innerKey hrow halts =>
          obtain ⟨e, fails⟩ := keyed_fails hinner hrow halts le_rfl
          rw [first] at fails
          cases fails
      | outerKey hrow halts =>
          obtain ⟨e, fails⟩ := keyed_fails houter hrow halts h₁
          rw [second] at fails
          cases fails
      | selector first' second' hpair halts =>
          rw [first, Except.ok.injEq, Prod.mk.injEq] at first'
          obtain ⟨rfl, rfl⟩ := first'
          rw [second, Except.ok.injEq, Prod.mk.injEq] at second'
          obtain ⟨rfl, rfl⟩ := second'
          obtain ⟨e, fails⟩ := EndsAlike.mapM_fails
            (pairs_endAlike form houter hinner first second) (h₁.trans h₂) hpair
            (RowM.ofEval_eq_error_iff.mpr ⟨_, halts, rfl⟩)
          rw [run] at fails
          cases fails

end

end Rows

/-! ## Left joins of sequences -/

namespace Source

variable {ctx : QueryContext} {s : Session} {A B : Sequence} {outerKey innerKey selector : Lambda}
  {p q : Param}

/-- On the pairs of a left join, the selector on join rows has the values of the selector. -/
theorem leftPairs_settle {S T : Ty} {n : Nat} {nullKeysMatch : Bool}
    {keyedOuter keyedInner : List (Value × Value)} {vs : List Value}
    (sel : selector.TakesPair ctx.splitter.options.matchMode p q S T) (id : UInt32) (O I : Ty)
    (fresh : ⟨id⟩ ∉ selector.body.declared) (houter : ∀ x ∈ keyedOuter, x.2.Known n)
    (hinner : ∀ y ∈ keyedInner, y.2.Known n)
    (values : List.Forall₂ (fun pair v => v.ClosureFree ∧
        ∃ m, selector.callPair ctx.callDepth pair n = .ok (v, m))
      (leftPairs nullKeysMatch keyedOuter keyedInner) vs) :
    List.Forall₂ (fun pair v => Settles n
      ((halfSelector ctx id O I selector).onRow ctx.callDepth (Rows.joinRow pair)) v)
      (leftPairs nullKeysMatch keyedOuter keyedInner) vs := by
  have known : ∀ pair ∈ leftPairs nullKeysMatch keyedOuter keyedInner,
      (pair.1.getD .null).Known n ∧ (pair.2.getD .null).Known n := fun pair hpair =>
    known_of_mem_fullPairs houter hinner (List.mem_append_left _ hpair)
  refine ((List.forall₂_and_left _ _).mpr ⟨known, values⟩).imp fun pair v h => ?_
  obtain ⟨⟨knownOuter, knownInner⟩, free, m, call⟩ := h
  exact halfSelector_settles ctx sel fresh knownOuter knownInner call free

/-- **A left join of sequences is the nested loop.**  Its selector takes the outer element first and
the inner one second.  It is composed whatever the element types are, and fails exactly if one of
its functions does on rows that the loop gives to it.  If these have values, the rows are those of
the selector on the pairs of the nested loop, in order.  What a function does on rows that are there
at the start is the same at any later time, so it is said of the start. -/
theorem leftOuterJoin_rows (made : ctx.Made) (reached : ctx.splitter.Reached s.split) {ty : Ty}
    (keys : Query.correlatedTy A.elementTy B.elementTy outerKey innerKey = .ok ty)
    (sel : selector.TakesPair ctx.splitter.options.matchMode p q A.elementTy B.elementTy.option)
    (fresh : ⟨s.split.ids.next⟩ ∉ selector.body.declared)
    (hA : ∀ row ∈ A.rows, row.Known s.closures) (hB : ∀ row ∈ B.rows, row.Known s.closures) :
    (∀ state, ctx.splitter.Reached state → ∃ map,
      ((ctx.splitter.carrierMap selector
        (JoinRow.ty A.elementTy B.elementTy.option)).run.run state).1 = .ok map ∧
      map.memberOf p.id = some JoinRow.outer ∧ map.memberOf q.id = some JoinRow.inner) ∧
    (∀ {keyedOuter keyedInner : List (Value × Value)} {n₁ n₂ : Nat} {results : List Value},
      Rows.keyed ctx.callDepth innerKey B.rows s.closures = .ok (keyedInner, n₁) →
      Rows.keyed ctx.callDepth outerKey A.rows n₁ = .ok (keyedOuter, n₂) →
      List.Forall₂ (fun pair v => v.ClosureFree ∧
          ∃ m, selector.callPair ctx.callDepth pair s.closures = .ok (v, m))
        (leftPairs ctx.join.nullKeysMatch keyedOuter keyedInner) results →
      ∃ resultTy s', (leftOuterJoin A B outerKey innerKey selector).exec ctx s =
        (.ok ⟨resultTy, results⟩, s')) ∧
    (∀ {h : Halt}, Rows.LeftJoinHalts ctx.callDepth ctx.join.nullKeysMatch outerKey innerKey
        selector A.rows B.rows s.closures h →
      ∃ e, ((leftOuterJoin A B outerKey innerKey selector).exec ctx s).1 = .error e) ∧
    ∀ {e : QueryError}, ((leftOuterJoin A B outerKey innerKey selector).exec ctx s).1 = .error e →
      ∃ h, Rows.LeftJoinHalts ctx.callDepth ctx.join.nullKeysMatch outerKey innerKey selector
        A.rows B.rows s.closures h ∧ e = .ofHalt h := by
  obtain rfl := Query.eq_grouping_of_correlatedTy keys
  have stands : s.Stands ctx s.split.ids.next := ⟨reached.remembers, rfl⟩
  have yields : Yields ctx s.split.ids.next _ _ _ _ := yields_leftOuterJoin made keys sel
  have form : ∀ {a b : Value}, a.Known s.closures → b.Known s.closures →
      EndsAlike s.closures (.ofEval (selector.call ctx.callDepth [a, b]))
        ((halfSelector ctx s.split.ids.next A.elementTy B.elementTy selector).onRow ctx.callDepth
          (JoinRow.value a b)) :=
    fun ha hb => halfSelector_endsAlike ctx sel fresh ha hb ctx.callDepth
  refine ⟨fun state hstate => ?_, ?_, fun halts => ?_, fun fails => ?_⟩
  · obtain ⟨_, -, planned, -⟩ := Splitter.carrierMap_run hstate.remembers selector
      (JoinRow.ty A.elementTy B.elementTy.option)
    rw [sel.planOf made] at planned
    rw [sel.params_eq] at planned
    have slots : (Lambda.TakesBothOptional.plan A.elementTy B.elementTy).slots =
        [JoinRow.outerSlot A.elementTy, JoinRow.innerSlot B.elementTy.option] := rfl
    exact ⟨_, congrArg Prod.fst planned, CarrierMap.memberOf_ofPlan_pair _ sel.distinct slots⟩
  · intro keyedOuter keyedInner n₁ n₂ results first second values
    have settled := Rows.keysSettle hA hB first second
    have values := leftPairs_settle sel s.split.ids.next A.elementTy B.elementTy fresh
      (Rows.known_of_keyed hA second) (Rows.known_of_keyed hB first) values
    obtain ⟨k, rows⟩ := Rows.leftJoin_settles settled values s.closures le_rfl
    obtain ⟨s', run, -⟩ := yields.exec_eq_ok stands rows
    exact ⟨_, s', run⟩
  · obtain ⟨e, fails⟩ := Rows.leftJoin_fails form hA hB halts
    exact ⟨e, (yields.exec_eq_error_iff stands).mpr fails⟩
  · exact Rows.exists_of_leftJoin_fails form hA hB ((yields.exec_eq_error_iff stands).mp fails)

/-- Numbers hold no closures. -/
theorem known_numbers (rows : List Int64) (n : Nat) : ∀ row ∈ (numbers rows).rows, row.Known n := by
  intro row hrow
  obtain ⟨i, -, rfl⟩ := List.mem_map.mp hrow
  exact fun _ h => nomatch h

theorem numberPair_takesPair : numberPair.TakesPair .exact ⟨⟨101⟩, "a", .int⟩
    ⟨⟨102⟩, "b", Ty.int.option⟩ .int Ty.int.option :=
  ⟨rfl, by decide, by decide, by decide, by decide⟩

/-- `|n| 6 / n`. -/
def sixthKey : Lambda :=
  let n : Param := ⟨⟨100⟩, "n", .int⟩
  ⟨[n], .binary (.arith .div) (.lit (.int 6)) (.param n) .int⟩

/-- A number without a match stands alone; a key of zero that cannot be evaluated is a failure. -/
theorem leftOuterJoin_numbers :
    (∃ resultTy s', (leftOuterJoin (numbers [1, 2]) (numbers [2, 3, 2]) numberKey numberKey
        numberPair).exec exactContext {} =
      (.ok ⟨resultTy, [.tuple [.int 1, .null], .tuple [.int 2, .int 2],
        .tuple [.int 2, .int 2]]⟩, s')) ∧
    ∃ e, ((leftOuterJoin (numbers [1, 2]) (numbers [3, 0]) numberKey sixthKey
      numberPair).exec exactContext {}).1 = .error e := by
  constructor
  · refine (leftOuterJoin_rows made_exactContext (.start {}) rfl numberPair_takesPair (by decide)
      (known_numbers _ _) (known_numbers _ _)).2.1 rfl rfl ?_
    exact .cons ⟨rfl, _, rfl⟩ (.cons ⟨rfl, _, rfl⟩ (.cons ⟨rfl, _, rfl⟩ .nil))
  · have zero : Value.int 0 ∈ (numbers [3, 0]).rows := by simp [numbers]
    exact (leftOuterJoin_rows made_exactContext (.start {}) rfl numberPair_takesPair (by decide)
      (known_numbers _ _) (known_numbers _ _)).2.2.1 (.innerKey (h := .fault .divisionByZero) zero rfl)

end Source

end RowQuery
