import RowQuery.Proofs.Query.LeftJoinRows
import RowQuery.Proofs.Query.PairExchange

/-!
# The rows of a right join

A right join is the left join of the sources in the other order: the keys change places, and so do
the parameters of the selector, which is split over join rows of inner and outer elements.  What the
caller sees are outer and inner elements, in this order.

* `yields_rightOuterJoin` — the right join of sequences does what a left join does on rows.
* `Lambda.callPair_swap` — the selector with its parameters exchanged, on the exchanged pair.
* `Source.rightPairs_settle` — the values of the selector on the pairs of a right join.
* **`Source.rightOuterJoin_rows`** — right joins of sequences.
-/

namespace RowQuery

variable {ctx : QueryContext} {s : Session} {A B : Sequence} {outerKey innerKey selector : Lambda}
  {p q : Param}

/-- **The right join of sequences** does what the left join of the exchanged rows does. -/
theorem yields_rightOuterJoin {id : UInt32} (made : ctx.Made)
    (keys : Query.correlatedTy A.elementTy B.elementTy outerKey innerKey =
      .ok (Grouping.ty A.elementTy B.elementTy))
    (sel : selector.TakesPair ctx.splitter.options.matchMode p q A.elementTy.option B.elementTy) :
    Yields ctx id (id + 1) (Source.rightOuterJoin A B outerKey innerKey selector)
      (halfSelector ctx id B.elementTy A.elementTy ⟨[q, p], selector.body⟩).retTy
      (Rows.leftJoin ctx.callDepth ctx.join.nullKeysMatch innerKey outerKey
        (halfSelector ctx id B.elementTy A.elementTy ⟨[q, p], selector.body⟩) B.rows A.rows) := by
  have switched : selector.switch.mapError QueryError.split = .ok ⟨[q, p], selector.body⟩ :=
    mapError_eq_ok_iff.mpr sel.switch_eq_ok
  refine (gives_ofExcept switched).bind ?_
  refine (yields_joinRows (Query.correlatedTy_comm keys)).bind fun _ => ?_
  exact yields_selectSplit sel.switch.arity_eq (sel.switch.planOf made) rfl

/-- **The selector with its parameters exchanged** has its values on exchanged pairs. -/
theorem Lambda.callPair_swap {f : Lambda} {mode : MatchMode} {S T : Ty} {depth n m : Nat}
    {pair : Option Value × Option Value} {v : Value} (sel : f.TakesPair mode p q S T)
    (known : (pair.1.getD .null).Known n ∧ (pair.2.getD .null).Known n)
    (call : f.callPair depth pair n = .ok (v, m)) (free : v.ClosureFree) :
    ∃ l, Lambda.callPair ⟨[q, p], f.body⟩ depth pair.swap n = .ok (v, l) :=
  Lambda.call_switch sel.params_eq sel.distinct known.1 known.2 call free

namespace Source

/-- On the pairs of a right join, the exchanged selector on join rows has the values of the
selector. -/
theorem rightPairs_settle {S T : Ty} {n : Nat} {nullKeysMatch : Bool}
    {keyedOuter keyedInner : List (Value × Value)} {vs : List Value}
    (sel : selector.TakesPair ctx.splitter.options.matchMode p q S T) (id : UInt32) (O I : Ty)
    (fresh : ⟨id⟩ ∉ selector.body.declared) (houter : ∀ x ∈ keyedOuter, x.2.Known n)
    (hinner : ∀ y ∈ keyedInner, y.2.Known n)
    (values : List.Forall₂ (fun pair v => v.ClosureFree ∧
        ∃ m, selector.callPair ctx.callDepth pair n = .ok (v, m))
      (rightPairs nullKeysMatch keyedOuter keyedInner) vs) :
    List.Forall₂ (fun pair v => Settles n
      ((halfSelector ctx id O I ⟨[q, p], selector.body⟩).onRow ctx.callDepth
        (Rows.joinRow pair)) v)
      (leftPairs nullKeysMatch keyedInner keyedOuter) vs := by
  have known : ∀ pair ∈ rightPairs nullKeysMatch keyedOuter keyedInner,
      (pair.1.getD .null).Known n ∧ (pair.2.getD .null).Known n := fun pair hpair =>
    known_of_mem_fullPairs houter hinner (rightPairs_subset_fullPairs _ _ hpair)
  refine leftPairs_settle sel.switch id O I fresh hinner houter ?_
  have values := (List.forall₂_and_left _ _).mpr ⟨known, values⟩
  rw [rightPairs, List.forall₂_map_left_iff] at values
  refine values.imp fun pair v h => ?_
  obtain ⟨known, free, m, call⟩ := h
  exact ⟨free, Lambda.callPair_swap sel known call free⟩

/-- **A right join of sequences is the nested loop from the inner side.**  It is composed whatever
the element types are, and fails only in evaluating its functions on rows.  If these have values, the
rows are those of the selector on the pairs of the loop, in the order of the inner rows, and the left
join of the same sources puts the same positions together, whenever it takes place. -/
theorem rightOuterJoin_rows (made : ctx.Made) (reached : ctx.splitter.Reached s.split) {ty : Ty}
    (keys : Query.correlatedTy A.elementTy B.elementTy outerKey innerKey = .ok ty)
    (sel : selector.TakesPair ctx.splitter.options.matchMode p q A.elementTy.option B.elementTy)
    (fresh : ⟨s.split.ids.next⟩ ∉ selector.body.declared)
    (hA : ∀ row ∈ A.rows, row.Known s.closures) (hB : ∀ row ∈ B.rows, row.Known s.closures) :
    (∀ e, ((rightOuterJoin A B outerKey innerKey selector).exec ctx s).1 = .error e →
      e.IsEvaluation) ∧
    ∀ {keyedOuter keyedInner : List (Value × Value)} {n₁ n₂ : Nat} {results : List Value},
      Rows.keyed ctx.callDepth outerKey A.rows s.closures = .ok (keyedOuter, n₁) →
      Rows.keyed ctx.callDepth innerKey B.rows n₁ = .ok (keyedInner, n₂) →
      List.Forall₂ (fun pair v => v.ClosureFree ∧
          ∃ m, selector.callPair ctx.callDepth pair s.closures = .ok (v, m))
        (rightPairs ctx.join.nullKeysMatch keyedOuter keyedInner) results →
      (∃ resultTy s', (rightOuterJoin A B outerKey innerKey selector).exec ctx s =
        (.ok ⟨resultTy, results⟩, s')) ∧
      ∀ m, s.closures ≤ m → ∃ keyedInner' keyedOuter' m₁ m₂,
        Rows.keyed ctx.callDepth innerKey B.rows m = .ok (keyedInner', m₁) ∧
        Rows.keyed ctx.callDepth outerKey A.rows m₁ = .ok (keyedOuter', m₂) ∧
        (matchedPairs (rightPairs ctx.join.nullKeysMatch (keyedOuter.map (·.1)).zipIdx
            (keyedInner.map (·.1)).zipIdx)).Perm
          (matchedPairs (leftPairs ctx.join.nullKeysMatch (keyedOuter'.map (·.1)).zipIdx
            (keyedInner'.map (·.1)).zipIdx)) := by
  obtain rfl := Query.eq_grouping_of_correlatedTy keys
  have stands : s.Stands ctx s.split.ids.next := ⟨reached.remembers, rfl⟩
  have yields : Yields ctx s.split.ids.next _ _ _ _ := yields_rightOuterJoin made keys sel
  refine ⟨fun e fails => yields.isEvaluation (Rows.leftJoin_ends _ _ _ _ _) stands fails, ?_⟩
  intro keyedOuter keyedInner n₁ n₂ results first second values
  have settled : Rows.KeysSettle ctx.callDepth s.closures innerKey outerKey B.rows A.rows keyedInner
      keyedOuter := Rows.keysSettle hB hA first second
  refine ⟨?_, fun m hm => ?_⟩
  · have values := rightPairs_settle sel s.split.ids.next B.elementTy A.elementTy fresh
      (Rows.known_of_keyed hA first) (Rows.known_of_keyed hB second) values
    obtain ⟨k, rows⟩ := Rows.leftJoin_settles settled values s.closures le_rfl
    obtain ⟨s', run, -⟩ := yields.exec_eq_ok stands rows
    exact ⟨_, s', run⟩
  · obtain ⟨w, keyedInner', keyedOuter', k, l, run, run', alikeInner, alikeOuter⟩ :=
      settled.outerFirst m hm
    refine ⟨keyedInner', keyedOuter', _, _, run, run', ?_⟩
    rw [← alikeOuter.zipIdx.leftPairs_eq alikeInner.zipIdx]
    exact matchedPairs_perm _ _

/-- `|a: Option<Int>, b: Int| (a, b)`. -/
def pairNumber : Lambda :=
  let a : Param := ⟨⟨101⟩, "a", Ty.int.option⟩
  let b : Param := ⟨⟨102⟩, "b", .int⟩
  ⟨[a, b], .tuple [.param a, .param b]⟩

theorem pairNumber_takesPair : pairNumber.TakesPair .exact ⟨⟨101⟩, "a", Ty.int.option⟩
    ⟨⟨102⟩, "b", .int⟩ Ty.int.option .int :=
  ⟨rfl, by decide, by decide, by decide, by decide⟩

/-- The rows come in the order of the inner numbers; the one without a match stands alone. -/
theorem rightOuterJoin_numbers :
    ∃ resultTy s', (rightOuterJoin (numbers [1, 2, 2]) (numbers [3, 2]) numberKey numberKey
        pairNumber).exec exactContext {} =
      (.ok ⟨resultTy, [.tuple [.null, .int 3], .tuple [.int 2, .int 2],
        .tuple [.int 2, .int 2]]⟩, s') := by
  refine ((rightOuterJoin_rows made_exactContext (.start {}) rfl pairNumber_takesPair (by decide)
    (known_numbers _ _) (known_numbers _ _)).2 rfl rfl ?_).1
  exact .cons ⟨rfl, _, rfl⟩ (.cons ⟨rfl, _, rfl⟩ (.cons ⟨rfl, _, rfl⟩ .nil))

end Source

end RowQuery
