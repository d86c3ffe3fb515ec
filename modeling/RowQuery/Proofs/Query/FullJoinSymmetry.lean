import RowQuery.Proofs.Query.FullJoinStrategies

/-!
# Full joins from either side

A full join may be made from the side of either source: with the sources, the keys and the
parameters of the selector exchanged, the same rows come in another order.  The join by rows without
a match puts the same pairs together, in whichever order the two sides are gone over.  The union keeps
the first of equal rows, so its rows depend, up to order, on which rows there are.

* `FullJoinStrategy.rows_swap` — the rows of a strategy from the other side.
* **`Source.fullOuterJoin_symmetric`** — full joins of sequences from the other side.
-/

namespace RowQuery

/-- **The rows of a strategy from the other side** are the same, up to order. -/
theorem FullJoinStrategy.rows_swap {nullKeysMatch : Bool} {outer inner : List (Value × Value)}
    {value : Option Value × Option Value → Value}
    (free : ∀ pair ∈ fullPairs nullKeysMatch outer inner, (value pair).ClosureFree)
    (strategy : FullJoinStrategy) :
    (strategy.rows nullKeysMatch value outer inner).Perm
      (strategy.rows nullKeysMatch (value ∘ Prod.swap) inner outer) := by
  cases strategy with
  | antiJoin =>
      have exchanged : ((fullPairs nullKeysMatch outer inner).map value).Perm
          (((fullPairs nullKeysMatch inner outer).map Prod.swap).map value) :=
        (fullPairs_perm_swap outer inner).map value
      rwa [List.map_map] at exchanged
  | union =>
      have left : (leftPairs nullKeysMatch inner outer).map (value ∘ Prod.swap) =
          (rightPairs nullKeysMatch outer inner).map value := by
        rw [rightPairs, List.map_map]
      have right : (rightPairs nullKeysMatch inner outer).map (value ∘ Prod.swap) =
          (leftPairs nullKeysMatch outer inner).map value := by
        rw [rightPairs, List.map_map]
        rfl
      have freeRows : ∀ v ∈ (leftPairs nullKeysMatch outer inner).map value ++
          (rightPairs nullKeysMatch outer inner).map value, v.ClosureFree := by
        intro v hv
        rw [← List.map_append] at hv
        obtain ⟨pair, hpair, rfl⟩ := List.mem_map.mp hv
        refine free pair ((List.mem_append.mp hpair).elim (List.mem_append_left _) ?_)
        exact fun h => rightPairs_subset_fullPairs outer inner h
      rw [rows, rows, left, right]
      exact distinctBy_perm freeRows fun v => List.perm_append_comm.mem_iff

namespace Source

variable {ctx : QueryContext} {s s' : Session} {A B : Sequence}
  {outerKey innerKey selector switched : Lambda} {p q : Param}

/-- **Full joins are symmetric.**  If the functions have values on the rows, the join of two sequences
and that of the same sequences in the other order, with the keys and the parameters of the selector
exchanged, both end, and they have the same rows up to order, whichever strategy they follow and
whichever of them comes first. -/
theorem fullOuterJoin_symmetric {n : Nat} (made : ctx.Made)
    (mode : ctx.splitter.options.matchMode = .assignable) (reached : ctx.splitter.Reached s.split)
    (reached' : ctx.splitter.Reached s'.split) {ty : Ty}
    (keys : Query.correlatedTy A.elementTy B.elementTy outerKey innerKey = .ok ty)
    (sel : selector.TakesBothOptional p q A.elementTy B.elementTy)
    (exchanged : selector.switch = .ok switched)
    (fresh : ∀ id ∈ ctx.join.fullJoin.carrierIds s.split.ids.next, id ∉ selector.body.declared)
    (fresh' : ∀ id ∈ ctx.join.fullJoin.carrierIds s'.split.ids.next, id ∉ selector.body.declared)
    (evaluates : Rows.FullJoinEvaluates ctx.callDepth n ctx.join.nullKeysMatch outerKey innerKey
      selector A.rows B.rows) (hn : n ≤ s.closures) (hn' : n ≤ s'.closures) :
    ∃ rows rows' resultTy resultTy' after after',
      (fullOuterJoin A B outerKey innerKey selector).exec ctx s = (.ok ⟨resultTy, rows⟩, after) ∧
      (fullOuterJoin B A innerKey outerKey switched).exec ctx s' =
        (.ok ⟨resultTy', rows'⟩, after') ∧
      rows.Perm rows' := by
  have pair := sel.takesPair mode
  obtain rfl : ⟨[q, p], selector.body⟩ = switched :=
    Except.ok.inj (pair.switch_eq_ok.symm.trans exchanged)
  obtain ⟨keyedOuter, keyedInner, value, values⟩ := evaluates.exists_values
  obtain rfl := Query.eq_grouping_of_correlatedTy keys
  obtain ⟨resultTy, after, run⟩ := fullOuterJoin_eq_ok made mode reached keys sel fresh values hn
  obtain ⟨resultTy', after', run'⟩ := fullOuterJoin_eq_ok made mode reached'
    (Query.correlatedTy_comm keys) sel.switch fresh' (values.switch pair) hn'
  exact ⟨_, _, _, _, _, _, run, run', FullJoinStrategy.rows_swap values.free _⟩

/-- `|b: Option<Int>, a: Option<Int>| (a, b)`. -/
def switchedPair : Lambda :=
  let a : Param := ⟨⟨101⟩, "a", Ty.int.option⟩
  let b : Param := ⟨⟨102⟩, "b", Ty.int.option⟩
  ⟨[b, a], .tuple [.param a, .param b]⟩

/-- Numbers that may be absent, joined from either side. -/
theorem fullOuterJoin_symmetric_optionalNumbers :
    ∃ rows rows' resultTy resultTy' after after',
      (fullOuterJoin (optionalNumbers [.null, .int 1, .int 1])
        (optionalNumbers [.int 1, .null, .int 2]) optionalKey optionalKey optionalPair).exec
          plainContext {} = (.ok ⟨resultTy, rows⟩, after) ∧
      (fullOuterJoin (optionalNumbers [.int 1, .null, .int 2])
        (optionalNumbers [.null, .int 1, .int 1]) optionalKey optionalKey switchedPair).exec
          plainContext {} = (.ok ⟨resultTy', rows'⟩, after') ∧
      rows.Perm rows' :=
  fullOuterJoin_symmetric ⟨{}, {}, 8, rfl⟩ rfl (.start {}) (.start {}) rfl
    ⟨rfl, by decide, by decide, rfl, rfl⟩ rfl (by decide) (by decide) optionalNumbers_evaluates
    le_rfl le_rfl

end Source

end RowQuery
