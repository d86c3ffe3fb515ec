import RowQuery.Proofs.Query.DistinctRows
import RowQuery.Proofs.Query.FullJoinRows
import RowQuery.Proofs.Query.RightJoinRows

/-!
# Full joins under either strategy

A full join adds to the rows of the left join either those of the inner rows that no outer row
matches, or those of the whole right join, and then keeps the first of equal rows.  A row of the
right join whose outer side is not absent is one of the left join already, so both strategies come
to the same rows, once repeated ones are left out.

* `FullJoinStrategy.rows` — the rows of a full join, of the values of a selector on pairs.
* **`FullJoinStrategy.rows_union`** — those of the union are those of the other strategy, each once.
* `Rows.FullJoinEvaluates` — full joins whose functions have values without closures.
* `Rows.FullJoinValues` — what is known of these values at any later time, from either side.
* **`Source.fullOuterJoin_eq_ok`** — what a full join of sequences makes of these values.
* **`Source.fullOuterJoin_union`** — the strategies differ in repeated rows only.
-/

namespace RowQuery

/-! ## The rows of a strategy -/

namespace FullJoinStrategy

variable {nullKeysMatch : Bool} {value : Option Value × Option Value → Value}
  {outer inner : List (Value × Value)}

/-- **The rows of a full join** of the values of a selector on pairs. -/
def rows (strategy : FullJoinStrategy) (nullKeysMatch : Bool)
    (value : Option Value × Option Value → Value) (outer inner : List (Value × Value)) :
    List Value :=
  match strategy with
  | antiJoin => (fullPairs nullKeysMatch outer inner).map value
  | union => Rows.union ((leftPairs nullKeysMatch outer inner).map value)
      ((rightPairs nullKeysMatch outer inner).map value)

/-- The ids of the carriers of the two halves, if `next` is the next id. -/
def carrierIds (strategy : FullJoinStrategy) (next : UInt32) : List ParamId :=
  match strategy with
  | antiJoin => [⟨next⟩, ⟨next + 2⟩]
  | union => [⟨next⟩, ⟨next + 1⟩]

theorem rows_antiJoin : antiJoin.rows nullKeysMatch value outer inner =
    (leftPairs nullKeysMatch outer inner).map value ++
      (unmatched nullKeysMatch outer inner).map fun b => value (none, some b) := by
  rw [rows, fullPairs, List.map_append, List.map_map]
  rfl

/-- **The rows of the union are those of the other strategy, each once.** -/
theorem rows_union : union.rows nullKeysMatch value outer inner =
    (antiJoin.rows nullKeysMatch value outer inner).eraseDups := by
  have added : distinctBy value (leftPairs nullKeysMatch outer inner ++
        (rightPairs nullKeysMatch outer inner).filter fun pair => pair.1.isNone) =
      distinctBy value (leftPairs nullKeysMatch outer inner ++
        rightPairs nullKeysMatch outer inner) :=
    distinctBy_append_filter fun pair => mem_leftPairs_of_mem_rightPairs
  rw [filter_rightPairs] at added
  calc union.rows nullKeysMatch value outer inner
      = distinctBy id ((leftPairs nullKeysMatch outer inner ++
          rightPairs nullKeysMatch outer inner).map value) := by rw [List.map_append]; rfl
    _ = distinctBy id ((fullPairs nullKeysMatch outer inner).map value) := by
        rw [← map_distinctBy, ← added, map_distinctBy, fullPairs]
    _ = (antiJoin.rows nullKeysMatch value outer inner).eraseDups := distinctBy_id _

end FullJoinStrategy

/-! ## Computations -/

namespace Rows

variable {depth n : Nat} {nullKeysMatch : Bool} {outerKey innerKey selector left right : Lambda}
  {outer inner : List Value} {keyedOuter keyedInner : List (Value × Value)}

/-- The rows of a full join as a union.  `left` and `right` are the selectors of the two halves. -/
def unionJoin (callDepth : Nat) (nullKeysMatch : Bool) (outerKey innerKey left right : Lambda)
    (outer inner : List Value) : RowM (List Value) := do
  let rows ← leftJoin callDepth nullKeysMatch outerKey innerKey left outer inner
  return union rows (← leftJoin callDepth nullKeysMatch innerKey outerKey right inner outer)

/-- The rows of a full join as a union, if the selectors of its halves have values on the pairs. -/
theorem unionJoin_settles {vs us : List Value}
    (keys : KeysSettle depth n outerKey innerKey outer inner keyedOuter keyedInner)
    (hleft : List.Forall₂ (fun pair v => Settles n (left.onRow depth (joinRow pair)) v)
      (leftPairs nullKeysMatch keyedOuter keyedInner) vs)
    (hright : List.Forall₂ (fun pair u => Settles n (right.onRow depth (joinRow pair)) u)
      (leftPairs nullKeysMatch keyedInner keyedOuter) us) :
    Settles n (unionJoin depth nullKeysMatch outerKey innerKey left right outer inner)
      (union vs us) :=
  (leftJoin_settles keys hleft).bind ((leftJoin_settles keys.symm hright).bind (Settles.pure _))

/-! ## Evaluation -/

/-- **Full joins whose functions have values**: each key has one on the rows of its side, and the
selector has one without closures on each pair.  The rows are there when the next closure has number
`n`. -/
structure FullJoinEvaluates (depth n : Nat) (nullKeysMatch : Bool)
    (outerKey innerKey selector : Lambda) (outer inner : List Value) : Prop where
  outerRows : ∀ row ∈ outer, row.Known n
  innerRows : ∀ row ∈ inner, row.Known n
  functions : ∃ keyedOuter keyedInner n₁ n₂, keyed depth innerKey inner n = .ok (keyedInner, n₁) ∧
    keyed depth outerKey outer n₁ = .ok (keyedOuter, n₂) ∧
    ∀ pair ∈ fullPairs nullKeysMatch keyedOuter keyedInner, ∃ v m,
      v.ClosureFree ∧ selector.callPair depth pair n = .ok (v, m)

/-- **The values of the functions of a full join.**  The keys come out alike at any later time. -/
structure FullJoinValues (depth n : Nat) (nullKeysMatch : Bool)
    (outerKey innerKey selector : Lambda) (outer inner : List Value)
    (keyedOuter keyedInner : List (Value × Value))
    (value : Option Value × Option Value → Value) : Prop where
  keys : KeysSettle depth n outerKey innerKey outer inner keyedOuter keyedInner
  known : ∀ pair ∈ fullPairs nullKeysMatch keyedOuter keyedInner,
    (pair.1.getD .null).Known n ∧ (pair.2.getD .null).Known n
  free : ∀ pair ∈ fullPairs nullKeysMatch keyedOuter keyedInner, (value pair).ClosureFree
  call : ∀ pair ∈ fullPairs nullKeysMatch keyedOuter keyedInner, ∃ m,
    selector.callPair depth pair n = .ok (value pair, m)

theorem FullJoinEvaluates.exists_values
    (h : FullJoinEvaluates depth n nullKeysMatch outerKey innerKey selector outer inner) :
    ∃ keyedOuter keyedInner value, FullJoinValues depth n nullKeysMatch outerKey innerKey selector
      outer inner keyedOuter keyedInner value := by
  obtain ⟨keyedOuter, keyedInner, n₁, n₂, first, second, values⟩ := h.functions
  choose! value next free call using values
  refine ⟨keyedOuter, keyedInner, value, keysSettle h.outerRows h.innerRows first second, ?_, free,
    fun pair hpair => ⟨next pair, call pair hpair⟩⟩
  exact fun pair hpair => known_of_mem_fullPairs (known_of_keyed h.outerRows second)
    (known_of_keyed h.innerRows first) hpair

namespace FullJoinValues

variable {value : Option Value × Option Value → Value} {mode : MatchMode} {p q : Param} {S T : Ty}

/-- **The values from the other side.** -/
theorem switch (sel : selector.TakesPair mode p q S T)
    (h : FullJoinValues depth n nullKeysMatch outerKey innerKey selector outer inner keyedOuter
      keyedInner value) :
    FullJoinValues depth n nullKeysMatch innerKey outerKey ⟨[q, p], selector.body⟩ inner outer
      keyedInner keyedOuter (value ∘ Prod.swap) := by
  have mirrored : ∀ pair ∈ fullPairs nullKeysMatch keyedInner keyedOuter,
      pair.swap ∈ fullPairs nullKeysMatch keyedOuter keyedInner := by
    intro pair hpair
    have hswap := (fullPairs_perm_swap keyedInner keyedOuter).mem_iff.mp hpair
    obtain ⟨other, hother, rfl⟩ := List.mem_map.mp hswap
    exact hother
  refine ⟨h.keys.symm, fun pair hpair => (h.known _ (mirrored pair hpair)).symm,
    fun pair hpair => h.free _ (mirrored pair hpair), fun pair hpair => ?_⟩
  obtain ⟨m, call⟩ := h.call _ (mirrored pair hpair)
  exact Lambda.callPair_swap sel (h.known _ (mirrored pair hpair)) call
    (h.free _ (mirrored pair hpair))

/-- On join rows, the selector of a half has the values of the selector. -/
theorem settles {ctx : QueryContext} (sel : selector.TakesPair mode p q S T) {id : UInt32}
    (fresh : ⟨id⟩ ∉ selector.body.declared) (O I : Ty)
    (h : FullJoinValues ctx.callDepth n nullKeysMatch outerKey innerKey selector outer inner
      keyedOuter keyedInner value) {pair : Option Value × Option Value}
    (hpair : pair ∈ fullPairs nullKeysMatch keyedOuter keyedInner) :
    Settles n ((halfSelector ctx id O I selector).onRow ctx.callDepth (joinRow pair))
      (value pair) := by
  obtain ⟨m, call⟩ := h.call pair hpair
  exact halfSelector_settles ctx sel fresh (h.known pair hpair).1 (h.known pair hpair).2 call
    (h.free pair hpair)

section

variable {ctx : QueryContext} (sel : selector.TakesPair mode p q S T) {id : UInt32}
  (fresh : ⟨id⟩ ∉ selector.body.declared) (O I : Ty)
  (h : FullJoinValues ctx.callDepth n nullKeysMatch outerKey innerKey selector outer inner keyedOuter
    keyedInner value)

include sel fresh h

/-- So it has on the pairs of the left join. -/
theorem settles_leftPairs :
    List.Forall₂ (fun pair v => Settles n
        ((halfSelector ctx id O I selector).onRow ctx.callDepth (joinRow pair)) v)
      (leftPairs nullKeysMatch keyedOuter keyedInner)
      ((leftPairs nullKeysMatch keyedOuter keyedInner).map value) := by
  rw [List.forall₂_map_right_iff, List.forall₂_same]
  exact fun pair hpair => h.settles sel fresh O I (List.mem_append_left _ hpair)

/-- So it has, with its parameters exchanged, on the pairs of the right join. -/
theorem settles_rightPairs :
    List.Forall₂ (fun pair v => Settles n
        ((halfSelector ctx id O I ⟨[q, p], selector.body⟩).onRow ctx.callDepth (joinRow pair)) v)
      (leftPairs nullKeysMatch keyedInner keyedOuter)
      ((rightPairs nullKeysMatch keyedOuter keyedInner).map value) := by
  rw [rightPairs, List.map_map]
  exact (h.switch sel).settles_leftPairs sel.switch fresh O I

/-- So it has on the rows without a partner. -/
theorem settles_unmatched :
    List.Forall₂ (fun b u => Settles n
        ((halfSelector ctx id O I ⟨[q, p], selector.body⟩).onRow ctx.callDepth
          (JoinRow.value b .null)) u)
      (unmatched nullKeysMatch keyedOuter keyedInner)
      ((unmatched nullKeysMatch keyedOuter keyedInner).map fun b => value (none, some b)) := by
  rw [List.forall₂_map_right_iff, List.forall₂_same]
  intro b hb
  have hpair : (some b, none) ∈ fullPairs nullKeysMatch keyedInner keyedOuter := by
    refine (fullPairs_perm_swap keyedInner keyedOuter).mem_iff.mpr (List.mem_map.mpr ?_)
    exact ⟨(none, some b), List.mem_append_right _ (List.mem_map_of_mem hb), rfl⟩
  exact (h.switch sel).settles sel.switch fresh O I hpair

end

end FullJoinValues

end Rows

/-! ## Full joins of sequences -/

section

variable {ctx : QueryContext} {A B : Sequence} {outerKey innerKey selector : Lambda} {p q : Param}

/-- Where a plain element may be bound to an optional parameter, the selector also takes an outer
element that may be absent, and an inner one. -/
theorem Lambda.TakesBothOptional.takesPair_right {O I : Ty} {mode : MatchMode}
    (h : selector.TakesBothOptional p q O I) (assignable : mode = .assignable) :
    selector.TakesPair mode p q O.option I where
  params_eq := h.params_eq
  distinct := h.distinct
  closed := h.closed
  first := (h.switch.takesPair assignable).second
  second := (h.switch.takesPair assignable).first

/-- **The full join of sequences as a union** does what the computation does. -/
theorem yields_fullOuterJoin_union {id : UInt32} (made : ctx.Made)
    (mode : ctx.splitter.options.matchMode = .assignable)
    (strategy : ctx.join.fullJoin = .union)
    (keys : Query.correlatedTy A.elementTy B.elementTy outerKey innerKey =
      .ok (Grouping.ty A.elementTy B.elementTy))
    (sel : selector.TakesBothOptional p q A.elementTy B.elementTy) :
    Yields ctx id (id + 1 + 1) (Source.fullOuterJoin A B outerKey innerKey selector)
      (halfSelector ctx id A.elementTy B.elementTy selector).retTy
      (Rows.unionJoin ctx.callDepth ctx.join.nullKeysMatch outerKey innerKey
        (halfSelector ctx id A.elementTy B.elementTy selector)
        (halfSelector ctx (id + 1) B.elementTy A.elementTy ⟨[q, p], selector.body⟩)
        A.rows B.rows) := by
  refine Yields.read ?_
  simp only [strategy]
  refine (yields_leftOuterJoin made keys (sel.takesPair mode)).bind fun left => ?_
  refine (yields_rightOuterJoin made keys (sel.takesPair_right mode)).bind fun right => ?_
  exact (Computes.union (retTy_halfSelector (sel.takesPair mode) _ _ _ _ _ _)).yields

namespace Source

/-- **A full join of sequences** makes its rows of the values of its functions, whichever strategy
it follows. -/
theorem fullOuterJoin_eq_ok {s : Session} {n : Nat} {keyedOuter keyedInner : List (Value × Value)}
    {value : Option Value × Option Value → Value} (made : ctx.Made)
    (mode : ctx.splitter.options.matchMode = .assignable)
    (reached : ctx.splitter.Reached s.split) {ty : Ty}
    (keys : Query.correlatedTy A.elementTy B.elementTy outerKey innerKey = .ok ty)
    (sel : selector.TakesBothOptional p q A.elementTy B.elementTy)
    (fresh : ∀ id ∈ ctx.join.fullJoin.carrierIds s.split.ids.next, id ∉ selector.body.declared)
    (values : Rows.FullJoinValues ctx.callDepth n ctx.join.nullKeysMatch outerKey innerKey selector
      A.rows B.rows keyedOuter keyedInner value) (hn : n ≤ s.closures) :
    ∃ resultTy s', (fullOuterJoin A B outerKey innerKey selector).exec ctx s =
      (.ok ⟨resultTy, ctx.join.fullJoin.rows ctx.join.nullKeysMatch value keyedOuter keyedInner⟩,
        s') := by
  obtain rfl := Query.eq_grouping_of_correlatedTy keys
  have stands : s.Stands ctx s.split.ids.next := ⟨reached.remembers, rfl⟩
  have pair := sel.takesPair mode
  cases strategy : ctx.join.fullJoin with
  | antiJoin =>
      rw [strategy] at fresh
      have fresh' : ⟨s.split.ids.next + 1 + 1⟩ ∉ selector.body.declared := by
        rw [UInt32.add_assoc]
        exact fresh _ (by simp [FullJoinStrategy.carrierIds])
      have settled := Rows.fullJoin_settles (s.split.ids.next + 1) B.elementTy A.elementTy values.keys
        (values.settles_leftPairs pair (fresh _ List.mem_cons_self) A.elementTy B.elementTy)
        (values.settles_unmatched pair fresh' B.elementTy A.elementTy)
      obtain ⟨k, run⟩ := settled s.closures hn
      obtain ⟨s', run, -⟩ := (yields_fullOuterJoin made mode strategy keys sel).exec_eq_ok stands run
      rw [FullJoinStrategy.rows_antiJoin]
      exact ⟨_, s', run⟩
  | union =>
      rw [strategy] at fresh
      have fresh' : ⟨s.split.ids.next + 1⟩ ∉ selector.body.declared :=
        fresh _ (by simp [FullJoinStrategy.carrierIds])
      have settled := Rows.unionJoin_settles values.keys
        (values.settles_leftPairs pair (fresh _ List.mem_cons_self) A.elementTy B.elementTy)
        (values.settles_rightPairs pair fresh' B.elementTy A.elementTy)
      obtain ⟨k, run⟩ := settled s.closures hn
      obtain ⟨s', run, -⟩ :=
        (yields_fullOuterJoin_union made mode strategy keys sel).exec_eq_ok stands run
      exact ⟨_, s', run⟩

/-- **The strategies of full joins differ in repeated rows only.**  Two contexts agree on when keys
match and on how deep calls may nest; each follows one of the strategies.  If the functions have
values on the rows, both joins of the same sequences end, and the rows of the union are those of the
other one without the later ones of equal rows. -/
theorem fullOuterJoin_union {ctx' : QueryContext} {s s' : Session} {n : Nat} (made : ctx.Made)
    (made' : ctx'.Made) (mode : ctx.splitter.options.matchMode = .assignable)
    (mode' : ctx'.splitter.options.matchMode = .assignable)
    (strategy : ctx.join.fullJoin = .antiJoin) (strategy' : ctx'.join.fullJoin = .union)
    (nullKeys : ctx'.join.nullKeysMatch = ctx.join.nullKeysMatch)
    (depth : ctx'.callDepth = ctx.callDepth) (reached : ctx.splitter.Reached s.split)
    (reached' : ctx'.splitter.Reached s'.split) {ty : Ty}
    (keys : Query.correlatedTy A.elementTy B.elementTy outerKey innerKey = .ok ty)
    (sel : selector.TakesBothOptional p q A.elementTy B.elementTy)
    (fresh : ∀ id ∈ FullJoinStrategy.antiJoin.carrierIds s.split.ids.next,
      id ∉ selector.body.declared)
    (fresh' : ∀ id ∈ FullJoinStrategy.union.carrierIds s'.split.ids.next,
      id ∉ selector.body.declared)
    (evaluates : Rows.FullJoinEvaluates ctx.callDepth n ctx.join.nullKeysMatch outerKey innerKey
      selector A.rows B.rows) (hn : n ≤ s.closures) (hn' : n ≤ s'.closures) :
    ∃ rows resultTy resultTy' after after',
      (fullOuterJoin A B outerKey innerKey selector).exec ctx s = (.ok ⟨resultTy, rows⟩, after) ∧
      (fullOuterJoin A B outerKey innerKey selector).exec ctx' s' =
        (.ok ⟨resultTy', rows.eraseDups⟩, after') := by
  obtain ⟨keyedOuter, keyedInner, value, values⟩ := evaluates.exists_values
  have values' := values
  rw [← depth, ← nullKeys] at values'
  rw [← strategy] at fresh
  rw [← strategy'] at fresh'
  obtain ⟨resultTy, after, run⟩ := fullOuterJoin_eq_ok made mode reached keys sel fresh values hn
  obtain ⟨resultTy', after', run'⟩ :=
    fullOuterJoin_eq_ok made' mode' reached' keys sel fresh' values' hn'
  rw [strategy] at run
  rw [strategy', nullKeys, FullJoinStrategy.rows_union] at run'
  exact ⟨_, _, _, _, _, run, run'⟩

/-- A context in which full joins are unions. -/
def unionContext : QueryContext := { plainContext with join := { fullJoin := .union } }

/-- Numbers that may be absent, some of them twice: all evaluations succeed. -/
theorem optionalNumbers_evaluates : Rows.FullJoinEvaluates 8 0 false optionalKey optionalKey
    optionalPair [.null, .int 1, .int 1] [.int 1, .null, .int 2] where
  outerRows := by
    intro row hrow
    simp only [List.mem_cons, List.not_mem_nil, or_false] at hrow
    rcases hrow with rfl | rfl | rfl <;> exact fun _ h => nomatch h
  innerRows := by
    intro row hrow
    simp only [List.mem_cons, List.not_mem_nil, or_false] at hrow
    rcases hrow with rfl | rfl | rfl <;> exact fun _ h => nomatch h
  functions := by
    refine ⟨[(.null, .null), (.int 1, .int 1), (.int 1, .int 1)],
      [(.int 1, .int 1), (.null, .null), (.int 2, .int 2)], 0, 0, rfl, rfl, fun pair hpair => ?_⟩
    have pairs : fullPairs false [(Value.null, Value.null), (.int 1, .int 1), (.int 1, .int 1)]
        [(.int 1, Value.int 1), (.null, .null), (.int 2, .int 2)] =
      [(some .null, none), (some (.int 1), some (.int 1)), (some (.int 1), some (.int 1)),
        (none, some .null), (none, some (.int 2))] := rfl
    rw [pairs] at hpair
    simp only [List.mem_cons, List.not_mem_nil, or_false] at hpair
    have value : ∀ {pair v m}, optionalPair.callPair 8 pair 0 = .ok (v, m) → v.ClosureFree →
        ∃ v m, v.ClosureFree ∧ optionalPair.callPair 8 pair 0 = .ok (v, m) :=
      fun call free => ⟨_, _, free, call⟩
    rcases hpair with rfl | rfl | rfl | rfl | rfl <;> exact value rfl rfl

/-- The pair of ones and the pair of absent numbers stand twice, but once in the union. -/
theorem fullOuterJoin_union_optionalNumbers :
    ∃ resultTy after, (fullOuterJoin (optionalNumbers [.null, .int 1, .int 1])
        (optionalNumbers [.int 1, .null, .int 2]) optionalKey optionalKey optionalPair).exec
          unionContext {} =
      (.ok ⟨resultTy, [.tuple [.null, .null], .tuple [.int 1, .int 1], .tuple [.null, .int 2]]⟩,
        after) := by
  have both : ∃ rows resultTy resultTy' after after',
      (fullOuterJoin (optionalNumbers [.null, .int 1, .int 1])
        (optionalNumbers [.int 1, .null, .int 2]) optionalKey optionalKey optionalPair).exec
          plainContext {} = (.ok ⟨resultTy, rows⟩, after) ∧
      (fullOuterJoin (optionalNumbers [.null, .int 1, .int 1])
        (optionalNumbers [.int 1, .null, .int 2]) optionalKey optionalKey optionalPair).exec
          unionContext {} = (.ok ⟨resultTy', rows.eraseDups⟩, after') :=
    fullOuterJoin_union ⟨{}, {}, 8, rfl⟩ ⟨{}, { join := { fullJoin := .union } }, 8, rfl⟩ rfl rfl
      rfl rfl rfl rfl (.start {}) (.start {}) rfl ⟨rfl, by decide, by decide, rfl, rfl⟩ (by decide)
      (by decide) optionalNumbers_evaluates le_rfl le_rfl
  obtain ⟨rows, _, resultTy, _, after, run, run'⟩ := both
  have kept : ∃ after, (fullOuterJoin (optionalNumbers [.null, .int 1, .int 1])
        (optionalNumbers [.int 1, .null, .int 2]) optionalKey optionalKey optionalPair).exec
          plainContext {} =
      (.ok ⟨.tuple [Ty.int.option, Ty.int.option], [.tuple [.null, .null], .tuple [.int 1, .int 1],
        .tuple [.int 1, .int 1], .tuple [.null, .null], .tuple [.null, .int 2]]⟩, after) :=
    ⟨_, rfl⟩
  obtain ⟨_, kept⟩ := kept
  rw [run, Prod.mk.injEq, Except.ok.injEq, Sequence.mk.injEq] at kept
  obtain ⟨⟨-, rfl⟩, -⟩ := kept
  exact ⟨_, _, run'⟩

end Source

end

end RowQuery
