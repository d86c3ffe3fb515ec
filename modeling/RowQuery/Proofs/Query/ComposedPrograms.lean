import RowQuery.Proofs.Query.ComposedPlans
import RowQuery.Proofs.Query.ExecutedPlans
import RowQuery.Proofs.Query.FullJoinRows
import RowQuery.Proofs.Query.Programs

/-!
# Programs with plans and with sequences

A program that succeeds with sequences is composed with plans, too.  Executing any of its plans
gives the rows that the program had with sequences, although the plan computes shared results once
and in another order.

* `follows_selectSplit`, `follows_leftOuterJoin`, `follows_rightOuterJoin`, `follows_fullOuterJoin` —
  composed operations.
* `Step.follows`, **`Program.follows`** — a step, and all steps one after the other.
* **`Program.plans_agree`** — plans come to the rows of the sequences.
-/

namespace RowQuery

variable {c : Setting} {ids : Nat} {records : List Record}

/-! ## Composed operations -/

section

variable {A B : Sequence} {P Q : Plan} {outerKey innerKey selector : Lambda}

theorem follows_selectSplit (hA : StandsFor records A P)
    (sub : selector.body.declared ⊆ c.names) :
    Follows c (ids + 1) ids records StandsFor (Source.selectSplit A selector)
      (Source.selectSplit P selector) :=
  (follows_splitAgainst hA sub).bind fun _ _ _ later alike =>
    follows_project (hA.mono later) alike

theorem follows_whereSplit (hA : StandsFor records A P)
    (sub : selector.body.declared ⊆ c.names) :
    Follows c (ids + 1) ids records StandsFor (Source.whereSplit A selector)
      (Source.whereSplit P selector) :=
  (follows_splitAgainst hA sub).bind fun _ _ _ later alike =>
    follows_filter (hA.mono later) alike

theorem follows_joinRows (hA : StandsFor records A P) (hB : StandsFor records B Q) :
    Follows c ids ids records StandsFor (Source.joinRows A B outerKey innerKey)
      (Source.joinRows P Q outerKey innerKey) :=
  (follows_correlate hA hB (.refl outerKey) (.refl innerKey)).bind fun _ _ _ _ h =>
    follows_flatten h

theorem follows_leftOuterJoin (hA : StandsFor records A P) (hB : StandsFor records B Q)
    (sub : selector.body.declared ⊆ c.names) :
    Follows c (ids + 1) ids records StandsFor (Source.leftOuterJoin A B outerKey innerKey selector)
      (Source.leftOuterJoin P Q outerKey innerKey selector) := by
  refine (Follows.ofExcept _).bind fun _ _ _ later _ => ?_
  refine (follows_joinRows (hA.mono later) (hB.mono later)).bind fun _ _ _ _ h => ?_
  exact follows_selectSplit h sub

private theorem follows_switch (sub : selector.body.declared ⊆ c.names) :
    Follows c ids ids records (fun _ f g => f = g ∧ f.body.declared ⊆ c.names)
      (QueryM.ofExcept (selector.switch.mapError .split))
      (QueryM.ofExcept (selector.switch.mapError .split)) := by
  intro s t abreast f s' run
  obtain ⟨g, t', later, run', le, abreast', rfl⟩ := Follows.ofExcept _ s t abreast f s' run
  rw [QueryM.exec_ofExcept, Prod.mk.injEq] at run
  obtain ⟨p, q, -, rfl⟩ := Lambda.switch_eq_ok_iff.mp (mapError_eq_ok_iff.mp run.1)
  exact ⟨_, t', later, run', le, abreast', rfl, sub⟩

theorem follows_rightOuterJoin (hA : StandsFor records A P) (hB : StandsFor records B Q)
    (sub : selector.body.declared ⊆ c.names) :
    Follows c (ids + 1) ids records StandsFor
      (Source.rightOuterJoin A B outerKey innerKey selector)
      (Source.rightOuterJoin P Q outerKey innerKey selector) := by
  refine (follows_switch sub).bind ?_
  rintro _ switched _ later ⟨rfl, sub'⟩
  refine (follows_joinRows (hB.mono later) (hA.mono later)).bind fun _ _ _ _ h => ?_
  exact follows_selectSplit h sub'

theorem follows_unmatchedRows (hA : StandsFor records A P) (hB : StandsFor records B Q) :
    Follows c (ids + 1) ids records StandsFor (Source.unmatchedRows A B outerKey innerKey)
      (Source.unmatchedRows P Q outerKey innerKey) := by
  refine (follows_correlate hB hA (.refl innerKey) (.refl outerKey)).bind fun _ _ _ _ grouped => ?_
  refine (follows_emptyGroup grouped).bind fun _ _ _ later alike => ?_
  exact (follows_filter (grouped.mono later) alike).bind fun _ _ _ _ h => follows_flatten h

theorem follows_fullOuterJoin (hA : StandsFor records A P) (hB : StandsFor records B Q)
    (sub : selector.body.declared ⊆ c.names) :
    Follows c (ids + 3) ids records StandsFor
      (Source.fullOuterJoin A B outerKey innerKey selector)
      (Source.fullOuterJoin P Q outerKey innerKey selector) := by
  refine Follows.read ?_
  cases c.ctx.join.fullJoin with
  | antiJoin =>
      refine (follows_switch sub).bind ?_
      rintro _ switched _ later₁ ⟨rfl, sub'⟩
      have hA := hA.mono later₁
      have hB := hB.mono later₁
      refine (follows_leftOuterJoin hA hB sub).bind fun _ _ _ later₂ left => ?_
      have hA := hA.mono later₂
      have hB := hB.mono later₂
      refine (follows_unmatchedRows hA hB).bind fun _ _ _ later₃ rows => ?_
      refine (follows_selectSplit rows sub').bind fun _ _ _ later₄ right => ?_
      exact follows_concat ((left.mono later₃).mono later₄) right
  | union =>
      have both : Follows c (ids + 2) ids records StandsFor
          (do
            let left ← Source.leftOuterJoin A B outerKey innerKey selector
            let right ← Source.rightOuterJoin A B outerKey innerKey selector
            Source.union left right)
          (do
            let left ← Source.leftOuterJoin P Q outerKey innerKey selector
            let right ← Source.rightOuterJoin P Q outerKey innerKey selector
            Source.union left right) := by
        refine (follows_leftOuterJoin hA hB sub).bind fun _ _ _ later left => ?_
        refine (follows_rightOuterJoin (hA.mono later) (hB.mono later) sub).bind
          fun _ _ _ later' right => ?_
        exact follows_union (left.mono later') right
      exact both.weaken (Nat.le_succ _) le_rfl

end

/-! ## Programs -/

theorem follows_table (known : c.catalog.Known c.base) (name : String) :
    Follows c ids ids records StandsFor (c.catalog.sequence name) (c.catalog.scan name) := by
  have asRows : ∀ s, (c.catalog.sequence name).exec c.ctx s =
      (QueryM.ofRows (RowM.ofExcept (c.catalog.table name))).exec c.ctx s := by
    intro s
    rw [Catalog.sequence, QueryM.exec_ofExcept, QueryM.exec_ofRows]
    cases c.catalog.table name <;> rfl
  have alike : ∀ {rows} {w : Pairing}, c.catalog.table name = .ok rows → w.Shares c.base →
      rows.Alike w rows := by
    intro rows w found shares
    have hmem : (name, rows) ∈ c.catalog := mem_of_lookup (Catalog.table_eq_ok_iff.mp found)
    refine ⟨rfl, List.forall₂_same.mpr fun row hrow => Value.Alike.refl fun i hi => ?_⟩
    exact shares i (known _ hmem row hrow i hi)
  have rows : Follows c ids ids records StandsFor
      (QueryM.ofRows (RowM.ofExcept (c.catalog.table name))) (c.catalog.scan name) := by
    unfold Catalog.scan Plan.ofTable
    refine follows_node [] (List.nil_subset _) ?_ (fun _ _ => ⟨rfl, rfl⟩) ?_ ?_
    · intro n rows k h
      exact ⟨rows, (RowM.ofExcept_eq_ok_iff.mp h).1, fun _ => rfl⟩
    · intro w shares _
      cases found : c.catalog.table name with
      | ok rows => exact Agree.pure (alike found shares)
      | error e => exact Agree.throw e
    · rintro w xs rows i shares - found
      have scanned : Plan.scanRows c.catalog name rows.elementTy = .ok rows := by
        rw [Plan.scanRows, Catalog.table_eq_ok_iff.mp found]
        exact bind_eq_ok_iff.mpr ⟨(), Query.checkSameElements_eq_ok_iff.mpr rfl, rfl⟩
      show Agree w Sequence.Alike _ (RowM.ofExcept (Plan.scanRows c.catalog name rows.elementTy))
      rw [scanned, found]
      exact Agree.pure (alike found shares)
  intro s t abreast a s' run
  exact rows s t abreast a s' (asRows s ▸ run)

/-- **A step** goes along with itself. -/
theorem Step.follows (known : c.catalog.Known c.base) {n : Nat} (step : Step n)
    {results : Fin n → Sequence} {plans : Fin n → Plan}
    (h : ∀ i, StandsFor records (results i) (plans i)) (sub : step.declared ⊆ c.names) :
    Follows c (ids + step.ids) ids records StandsFor (step.perform c.catalog.sequence results)
      (step.perform c.catalog.scan plans) := by
  have each : ∀ f ∈ step.functions, f.body.declared ⊆ c.names :=
    fun f hf id hid => sub (List.mem_flatMap.mpr ⟨f, hf, hid⟩)
  cases step with
  | table name => exact follows_table known name
  | correlate outer inner outerKey innerKey =>
      exact follows_correlate (h outer) (h inner) (.refl outerKey) (.refl innerKey)
  | flattenWithDefault source => exact follows_flatten (h source)
  | project source selector => exact follows_project (h source) (.refl selector)
  | filter source predicate => exact follows_filter (h source) (.refl predicate)
  | union left right => exact follows_union (h left) (h right)
  | concat left right => exact follows_concat (h left) (h right)
  | selectSplit source selector =>
      exact follows_selectSplit (h source) (each selector (by simp [functions]))
  | whereSplit source predicate =>
      exact follows_whereSplit (h source) (each predicate (by simp [functions]))
  | leftOuterJoin outer inner outerKey innerKey selector =>
      exact follows_leftOuterJoin (h outer) (h inner) (each selector (by simp [functions]))
  | rightOuterJoin outer inner outerKey innerKey selector =>
      exact follows_rightOuterJoin (h outer) (h inner) (each selector (by simp [functions]))
  | fullOuterJoin outer inner outerKey innerKey selector =>
      exact follows_fullOuterJoin (h outer) (h inner) (each selector (by simp [functions]))

/-- **All steps of a program**, one after the other. -/
theorem Program.follows (known : c.catalog.Known c.base) {n : Nat} (p : Program n)
    {results : Fin n → Sequence} {plans : Fin n → Plan}
    (h : ∀ i, StandsFor records (results i) (plans i)) (sub : p.declared ⊆ c.names) :
    Follows c p.ids 0 records (fun later => List.Forall₂ (StandsFor later))
      (p.run c.catalog.sequence results) (p.run c.catalog.scan plans) := by
  induction p generalizing records with
  | done =>
      intro s t abreast a s' run
      cases run
      exact ⟨[], t, records, rfl, List.Subset.refl _, abreast, .nil⟩
  | step first rest ih =>
      have subFirst : first.declared ⊆ c.names := fun id hid => sub (List.mem_append_left _ hid)
      have subRest : rest.declared ⊆ c.names := fun id hid => sub (List.mem_append_right _ hid)
      rw [ids, Nat.add_comm]
      refine (first.follows known h subFirst).bind fun later result plan sub' hresult => ?_
      have hall : ∀ i, StandsFor later ((Fin.cons result results : Fin _ → Sequence) i)
          ((Fin.cons plan plans : Fin _ → Plan) i) :=
        Fin.cases hresult fun i => (h i).mono sub'
      refine (ih hall subRest).bind fun last results' plans' sub'' hresults => ?_
      intro s t abreast a s' run
      cases run
      exact ⟨plan :: plans', t, last, rfl, List.Subset.refl _, abreast,
        .cons (hresult.mono sub'') hresults⟩

namespace Program

/-- **Plans come to the rows of the sequences.**  If all steps of a program succeed with sequences,
they are composed with plans, of the same element types.  Executing any of the plans, at any later
time, gives the rows of the sequence in their order: a bisimulation relates them, along a one-to-one
pairing of the closures that the two sides made. -/
theorem plans_agree {ctx : QueryContext} {catalog : Catalog} {base : Nat}
    (known : catalog.Known base) (p : Program 0) {s s' t : Session} (base_le : base ≤ s.closures)
    (reachedLeft : ctx.splitter.Reached s.split) (reachedRight : ctx.splitter.Reached t.split)
    (freshLeft : s.split.ids.Fresh p.ids p.declared)
    (freshRight : t.split.ids.Fresh p.ids p.declared) {sequences : List Sequence}
    (eager : (p.run catalog.sequence Fin.elim0).exec ctx s = (.ok sequences, s')) :
    ∃ R, Value.Bisimulation R ∧ ∃ plans t',
      (p.run catalog.scan Fin.elim0).exec ctx t = (.ok plans, t') ∧
      List.Forall₂ (fun rows plan => plan.elementTy = rows.elementTy ∧ ∀ m, base ≤ m →
        ∃ rows' n w, plan.execute ctx catalog m = .ok (rows', n) ∧
          rows'.elementTy = rows.elementTy ∧ w.Shares base ∧
          List.Forall₂ (R w) rows.rows rows'.rows) sequences plans := by
  let c : Setting := ⟨ctx, catalog, base, p.declared⟩
  have start : Abreast c p.ids [] s t :=
    ⟨.nil, base_le, (fun x hx => nomatch hx), reachedLeft.remembers, reachedRight.remembers,
      freshLeft, freshRight⟩
  have steps : Follows c p.ids 0 [] (fun later => List.Forall₂ (StandsFor later))
      (p.run catalog.sequence Fin.elim0) (p.run catalog.scan Fin.elim0) :=
    p.follows known (fun i => i.elim0) (List.Subset.refl _)
  obtain ⟨plans, t', later, lazy, -, abreast, stand⟩ := steps s t start sequences s' eager
  refine ⟨Value.Alike, Value.Alike.bisimulation, plans, t', lazy, stand.imp ?_⟩
  rintro rows plan h
  refine ⟨h.elementTy_eq.symm, fun m hm => ?_⟩
  obtain ⟨r, hr, rfl, rfl⟩ := h
  obtain ⟨rows', n, w, run, shares, alike⟩ := abreast.history.execute hr hm
  exact ⟨rows', n, w, run, alike.elementTy_eq.symm, shares, alike.rows⟩

/-- `|n: Int| |t: Int| t + n`. -/
def adder : Lambda :=
  let n : Param := ⟨⟨103⟩, "n", .int⟩
  let t : Param := ⟨⟨104⟩, "t", .int⟩
  ⟨[n], .lambda [t] (.binaryOf (.arith .add) (.param t) (.param n))⟩

/-- A table of numbers; a function for each of them; the union of the functions with themselves;
and a full join of the numbers with themselves. -/
def sharing : Program 0 :=
  .step (.table "numbers") <|
  .step (.project 0 adder) <|
  .step (.union 0 0) <|
  .step (.fullOuterJoin 2 2 Source.numberKey Source.numberKey Source.optionalPair) .done

/-- `|t: Int| t + n`, made for the number `n`. -/
def added (id : Nat) (n : Int64) : Value :=
  let t : Param := ⟨⟨104⟩, "t", .int⟩
  .closure id ⟨[t], .binaryOf (.arith .add) (.param t) (.param ⟨⟨103⟩, "n", .int⟩)⟩
    [(⟨103⟩, .int n)]

/-- The functions of `sharing`, numbered in the order of their making. -/
def adders : Sequence := ⟨.fn [.int] .int, [added 0 1, added 1 2, added 2 1]⟩

/-- The pairs of `sharing`. -/
def joined : Sequence :=
  ⟨.tuple [Ty.int.option, Ty.int.option],
    [.tuple [.int 1, .int 1], .tuple [.int 1, .int 1], .tuple [.int 2, .int 2],
      .tuple [.int 1, .int 1], .tuple [.int 1, .int 1]]⟩

private theorem run_step {σ : Type} [Source σ] {table : String → QueryM σ} {n : Nat}
    {results : Fin n → σ} {first : Step n} {rest : Program (n + 1)} {ctx : QueryContext}
    {s t u : Session} {x : σ} {xs : List σ}
    (performed : (first.perform table results).exec ctx s = (.ok x, t))
    (others : (rest.run table (Fin.cons x results)).exec ctx t = (.ok xs, u)) :
    ((step first rest).run table results).exec ctx s = (.ok (x :: xs), u) := by
  rw [run, QueryM.exec_bind_eq_ok_iff]
  refine ⟨_, _, performed, ?_⟩
  rw [QueryM.exec_bind_eq_ok_iff]
  exact ⟨_, _, others, rfl⟩

/-- The union keeps three functions, as the projection is not run again for its second operand. -/
theorem run_sharing :
    ∃ s', (sharing.run (Catalog.sequence [("numbers", Source.numbers [1, 2, 1])])
        Fin.elim0).exec Source.plainContext {} =
      (.ok [Source.numbers [1, 2, 1], adders, adders, joined], s') := by
  have projected : (Source.project (Source.numbers [1, 2, 1]) adder).exec Source.plainContext {} =
      (.ok adders, { closures := 3 }) := rfl
  have united : (Source.union adders adders).exec Source.plainContext { closures := 3 } =
      (.ok adders, { closures := 3 }) := rfl
  have paired : ∃ s', (Source.fullOuterJoin (Source.numbers [1, 2, 1]) (Source.numbers [1, 2, 1])
      Source.numberKey Source.numberKey Source.optionalPair).exec Source.plainContext
        { closures := 3 } = (.ok joined, s') := ⟨_, rfl⟩
  obtain ⟨s', paired⟩ := paired
  have scanned : (Catalog.sequence [("numbers", Source.numbers [1, 2, 1])] "numbers").exec
      Source.plainContext {} = (.ok (Source.numbers [1, 2, 1]), {}) := rfl
  exact ⟨s', run_step scanned (run_step projected (run_step united (run_step paired rfl)))⟩

/-- Plans of `sharing` come to its three functions and five pairs. -/
theorem plans_agree_sharing :
    ∃ R, Value.Bisimulation R ∧ ∃ plans t',
      (sharing.run (Catalog.scan [("numbers", Source.numbers [1, 2, 1])])
        Fin.elim0).exec Source.plainContext {} = (.ok plans, t') ∧
      List.Forall₂ (fun rows plan => plan.elementTy = rows.elementTy ∧ ∀ m, 0 ≤ m →
        ∃ rows' n w, plan.execute Source.plainContext
            [("numbers", Source.numbers [1, 2, 1])] m = .ok (rows', n) ∧
          rows'.elementTy = rows.elementTy ∧ w.Shares 0 ∧
          List.Forall₂ (R w) rows.rows rows'.rows)
        [Source.numbers [1, 2, 1], adders, adders, joined] plans := by
  have known : Catalog.Known 0 [("numbers", Source.numbers [1, 2, 1])] := by
    intro entry hentry row hrow
    obtain rfl := List.mem_singleton.mp hentry
    obtain ⟨n, -, rfl⟩ := List.mem_map.mp hrow
    exact fun _ h => nomatch h
  have fresh : IdSupply.Fresh {} sharing.ids sharing.declared := by decide
  obtain ⟨s', eager⟩ := run_sharing
  exact plans_agree known sharing le_rfl (.start {}) (.start {}) fresh fresh eager

end Program

end RowQuery
