import RowQuery.Proofs.Query.FullJoinSides
import RowQuery.Proofs.Query.JoinPairs
import RowQuery.Proofs.Query.SequenceRuns
import RowQuery.Proofs.Split.Equivalence

/-!
# A full join as a computation on rows

A full join of sequences whose keys can be compared, with a selector that takes both sides
optional, is composed whatever the element types are.  What may fail is evaluating its functions on
the rows.

* `Rows.fullJoin` — the computation: a left join, then the inner rows that no outer row matches.
* `Lambda.TakesBothOptional` — the selectors that take both sides optional.
* **`yields_fullOuterJoin`** — the full join of sequences does what the computation does.
* `QueryError.IsEvaluation`, `Ends` — computations that fail only in evaluating functions.
* `Rows.leftJoin_ends`, **`Rows.fullJoin_ends`** — so do the left join and the full join.
-/

namespace RowQuery

namespace Rows

variable (callDepth : Nat) (nullKeysMatch : Bool) (outerKey innerKey : Lambda)

/-- The join rows of two lists of rows. -/
def joinRows (outer inner : List Value) : RowM (List Value) := do
  RowM.ofExcept (flatten (← correlate callDepth nullKeysMatch outerKey innerKey outer inner))

/-- The rows of a left join. -/
def leftJoin (selector : Lambda) (outer inner : List Value) : RowM (List Value) := do
  project callDepth selector (← joinRows callDepth nullKeysMatch outerKey innerKey outer inner)

/-- The join rows of the inner rows that no outer row matches. -/
def unmatchedRows (empty : Lambda) (outer inner : List Value) : RowM (List Value) := do
  let grouped ← correlate callDepth nullKeysMatch innerKey outerKey inner outer
  RowM.ofExcept (flatten (← filter callDepth empty grouped))

/-- The rows of a full join.  `left` and `right` are the selectors of the two halves. -/
def fullJoin (left empty right : Lambda) (outer inner : List Value) : RowM (List Value) := do
  let matched ← leftJoin callDepth nullKeysMatch outerKey innerKey left outer inner
  let alone ← unmatchedRows callDepth nullKeysMatch outerKey innerKey empty outer inner
  return matched ++ (← project callDepth right alone)

end Rows

/-! ## Composition -/

/-- **Selectors that take a pair of elements**: closed functions of two distinct parameters, of which
the first takes elements of one type and the second those of another. -/
structure Lambda.TakesPair (f : Lambda) (mode : MatchMode) (p q : Param) (S T : Ty) : Prop where
  params_eq : f.params = [p, q]
  distinct : p.id ≠ q.id
  closed : ∀ r ∈ f.body.freeRefs, r.id = p.id ∨ r.id = q.id
  first : mode.fits S p.ty = true
  second : mode.fits T q.ty = true

/-- **Selectors that take both sides optional**: closed functions of two distinct parameters. -/
structure Lambda.TakesBothOptional (f : Lambda) (p q : Param) (O I : Ty) : Prop where
  params_eq : f.params = [p, q]
  distinct : p.id ≠ q.id
  closed : ∀ r ∈ f.body.freeRefs, r.id = p.id ∨ r.id = q.id
  outer : p.ty = O.option
  inner : q.ty = I.option

namespace Lambda.TakesBothOptional

variable {f : Lambda} {p q : Param} {O I : Ty}

/-- Exchanging the parameters exchanges the sides. -/
theorem switch (h : f.TakesBothOptional p q O I) :
    Lambda.TakesBothOptional ⟨[q, p], f.body⟩ q p I O :=
  ⟨rfl, h.distinct.symm, fun r hr => (h.closed r hr).symm, h.inner, h.outer⟩

/-- The members of a join row in the order of the parameters. -/
def plan (O I : Ty) : MemberPlan :=
  ⟨JoinRow.ty O I.option, [JoinRow.outerSlot O, JoinRow.innerSlot I.option]⟩

/-- Where a plain element may be bound to an optional parameter, the selector takes an outer element
and an inner one that may be absent. -/
theorem takesPair (h : f.TakesBothOptional p q O I) {mode : MatchMode}
    (assignable : mode = .assignable) : f.TakesPair mode p q O I.option where
  params_eq := h.params_eq
  distinct := h.distinct
  closed := h.closed
  first := by
    rw [assignable, h.outer]
    exact Ty.isAssignableTo_option O
  second := by
    rw [assignable, h.inner]
    exact Ty.isAssignableTo_self I.option

end Lambda.TakesBothOptional

namespace Lambda.TakesPair

variable {f : Lambda} {mode : MatchMode} {p q : Param} {S T : Ty}

/-- Exchanging the parameters exchanges the elements. -/
theorem switch (h : f.TakesPair mode p q S T) :
    Lambda.TakesPair ⟨[q, p], f.body⟩ mode q p T S :=
  ⟨rfl, h.distinct.symm, fun r hr => (h.closed r hr).symm, h.second, h.first⟩

theorem switch_eq_ok (h : f.TakesPair mode p q S T) : f.switch = .ok ⟨[q, p], f.body⟩ :=
  switch_eq_ok_iff.mpr ⟨p, q, h.params_eq, rfl⟩

theorem arity_eq (h : f.TakesPair mode p q S T) : f.arity = 2 := by
  rw [Lambda.arity, h.params_eq]
  rfl

theorem checkParams (h : f.TakesPair mode p q S T) : f.checkParams = .ok () := by
  rw [checkParams_eq_ok_iff, h.params_eq]
  refine ⟨List.cons_ne_nil _ _, ?_, ?_⟩
  · simpa using h.distinct
  · simpa using h.closed

/-- **The selector has a plan**: the first parameter is matched to the outer member of the join row
and the second one to the inner member. -/
theorem planOf {ctx : QueryContext} {O I : Ty}
    (h : f.TakesPair ctx.splitter.options.matchMode p q O I.option) (made : ctx.Made) :
    ctx.splitter.planOf f (JoinRow.ty O I.option) = .ok (TakesBothOptional.plan O I) := by
  have types : f.paramTys = [p.ty, q.ty] := by
    rw [Lambda.paramTys, h.params_eq]
    rfl
  exact (made.planOf_joinRow types).mpr ⟨h.checkParams, rfl, .inl ⟨rfl, h.first, h.second⟩⟩

end Lambda.TakesPair

/-- The order of two parameters does not matter for their types. -/
theorem CarrierMap.declaredTy_switch {p q : Param} (distinct : p.id ≠ q.id) (id : ParamId) :
    declaredTy [p, q] id = declaredTy [q, p] id := by
  simp only [declaredTy, List.map_cons, List.map_nil, List.lookup_cons, List.lookup_nil]
  by_cases hp : id = p.id
  · rw [hp, beq_eq_false_iff_ne.mpr distinct]
  · rw [beq_eq_false_iff_ne.mpr hp]

theorem Query.correlatedTy_comm {O I : Ty} {outerKey innerKey : Lambda}
    (h : correlatedTy O I outerKey innerKey = .ok (Grouping.ty O I)) :
    correlatedTy I O innerKey outerKey = .ok (Grouping.ty I O) := by
  obtain ⟨_, houter, h⟩ := bind_eq_ok_iff.mp h
  obtain ⟨_, hinner, h⟩ := bind_eq_ok_iff.mp h
  refine bind_eq_ok_iff.mpr ⟨_, hinner, bind_eq_ok_iff.mpr ⟨_, houter, ?_⟩⟩
  split at h
  case isTrue comparable => exact if_pos comparable.symm
  case isFalse => cases h

section

variable {ctx : QueryContext} {id : UInt32} {A B : Sequence} {outerKey innerKey selector : Lambda}
  {p q : Param}

/-- The selector of one half: it takes one join row. -/
def halfSelector (ctx : QueryContext) (id : UInt32) (O I : Ty) (selector : Lambda) : Lambda :=
  (CarrierMap.ofPlan (ctx.splitter.nextCarrier { ids := ⟨id⟩ } (JoinRow.ty O I.option))
    selector.params (Lambda.TakesBothOptional.plan O I)).splitLambda selector

/-- The halves of a full join make rows of the same type. -/
theorem retTy_halfSelector {mode : MatchMode} {S T : Ty} (sel : selector.TakesPair mode p q S T)
    (id id' : UInt32) (O I O' I' : Ty) :
    (halfSelector ctx id O I selector).retTy =
      (halfSelector ctx id' O' I' ⟨[q, p], selector.body⟩).retTy := by
  have types : ∀ x, CarrierMap.declaredTy selector.params x = CarrierMap.declaredTy [q, p] x := by
    rw [sel.params_eq]
    exact CarrierMap.declaredTy_switch sel.distinct
  exact CarrierMap.retTy_splitLambda _ _ rfl sel.checkParams sel.switch.checkParams
    (by rw [sel.params_eq]; rfl) rfl types

/-- The join rows of sequences. -/
theorem yields_joinRows
    (keys : Query.correlatedTy A.elementTy B.elementTy outerKey innerKey =
      .ok (Grouping.ty A.elementTy B.elementTy)) :
    Yields ctx id id (Source.joinRows A B outerKey innerKey)
      (JoinRow.ty A.elementTy B.elementTy.option)
      (Rows.joinRows ctx.callDepth ctx.join.nullKeysMatch outerKey innerKey A.rows B.rows) :=
  (Computes.correlate keys).yields.bind fun _ => (Computes.flatten rfl).yields

/-- **The left join of sequences** does what the computation on rows does. -/
theorem yields_leftOuterJoin (made : ctx.Made)
    (keys : Query.correlatedTy A.elementTy B.elementTy outerKey innerKey =
      .ok (Grouping.ty A.elementTy B.elementTy))
    (sel : selector.TakesPair ctx.splitter.options.matchMode p q A.elementTy B.elementTy.option) :
    Yields ctx id (id + 1) (Source.leftOuterJoin A B outerKey innerKey selector)
      (halfSelector ctx id A.elementTy B.elementTy selector).retTy
      (Rows.leftJoin ctx.callDepth ctx.join.nullKeysMatch outerKey innerKey
        (halfSelector ctx id A.elementTy B.elementTy selector) A.rows B.rows) := by
  have check : Source.checkSelector selector = .ok () := if_pos sel.arity_eq
  refine (gives_ofExcept check).bind ((yields_joinRows keys).bind fun _ => ?_)
  exact yields_selectSplit sel.arity_eq (sel.planOf made) rfl

/-- The inner rows that no outer row matches. -/
theorem yields_unmatchedRows (made : ctx.Made)
    (keys : Query.correlatedTy A.elementTy B.elementTy outerKey innerKey =
      .ok (Grouping.ty A.elementTy B.elementTy)) :
    Yields ctx id (id + 1) (Source.unmatchedRows A B outerKey innerKey)
      (JoinRow.ty B.elementTy A.elementTy.option)
      (Rows.unmatchedRows ctx.callDepth ctx.join.nullKeysMatch outerKey innerKey
        (Grouping.isEmpty id B.elementTy A.elementTy) A.rows B.rows) := by
  refine (Computes.correlate (Query.correlatedTy_comm keys)).yields.bind fun _ => ?_
  refine (gives_emptyGroup made rfl).bind
    ((Computes.filter ?_).yields.bind fun _ => (Computes.flatten rfl).yields)
  refine bind_eq_ok_iff.mpr ⟨(), if_pos (Ty.isAssignableTo_self _), ?_⟩
  rfl

/-- **The full join of sequences** does what the computation on rows does. -/
theorem yields_fullOuterJoin (made : ctx.Made)
    (mode : ctx.splitter.options.matchMode = .assignable)
    (strategy : ctx.join.fullJoin = .antiJoin)
    (keys : Query.correlatedTy A.elementTy B.elementTy outerKey innerKey =
      .ok (Grouping.ty A.elementTy B.elementTy))
    (sel : selector.TakesBothOptional p q A.elementTy B.elementTy) :
    Yields ctx id (id + 1 + 1 + 1) (Source.fullOuterJoin A B outerKey innerKey selector)
      (halfSelector ctx id A.elementTy B.elementTy selector).retTy
      (Rows.fullJoin ctx.callDepth ctx.join.nullKeysMatch outerKey innerKey
        (halfSelector ctx id A.elementTy B.elementTy selector)
        (Grouping.isEmpty (id + 1) B.elementTy A.elementTy)
        (halfSelector ctx (id + 1 + 1) B.elementTy A.elementTy ⟨[q, p], selector.body⟩)
        A.rows B.rows) := by
  have left := sel.takesPair mode
  have right := sel.switch.takesPair mode
  have switched : selector.switch.mapError QueryError.split = .ok ⟨[q, p], selector.body⟩ :=
    mapError_eq_ok_iff.mpr left.switch_eq_ok
  refine Yields.read ?_
  simp only [strategy]
  refine (gives_ofExcept switched).bind ((yields_leftOuterJoin made keys left).bind ?_)
  refine fun matched => (yields_unmatchedRows made keys).bind fun alone => ?_
  refine (yields_selectSplit rfl (right.planOf made) rfl).bind fun rows => ?_
  exact (Computes.concat (retTy_halfSelector left _ _ _ _ _ _)).yields

end

/-! ## Failures -/

/-- **Failures of functions on rows**: a function has no value, or its calls nest too deep.  The
second is no failure that a call returns.  It stands for a call on a row that does not return within
the depth of the context (`Halt.depth`), which is how a call shows that does not return at all. -/
def QueryError.IsEvaluation : QueryError → Prop
  | .eval _ => True
  | .callDepth => True
  | _ => False

/-- **Computations that fail only in evaluating functions.**  Their results have a property. -/
def Ends {α : Type} (P : α → Prop) (c : RowM α) : Prop :=
  ∀ n, match c n with
    | .ok (a, _) => P a
    | .error e => e.IsEvaluation

namespace Ends

variable {α β : Type} {P : α → Prop} {Q : β → Prop}

theorem pure {a : α} (h : P a) : Ends P (Pure.pure a : RowM α) := fun _ => h

/-- A failure of the composition is a failure of one of the two parts. -/
theorem bind {c : RowM α} {d : α → RowM β} (hc : Ends P c) (hd : ∀ a, P a → Ends Q (d a)) :
    Ends Q (c >>= d) :=
  RowM.Lands.bind hc hd

/-- Among other failures, those of evaluation may be expected. -/
theorem lands {c : RowM α} {E : QueryError → Prop} (h : Ends P c)
    (expected : ∀ e, e.IsEvaluation → E e) : c.Lands P E :=
  RowM.Lands.mono h expected

theorem onRow (f : Lambda) (depth : Nat) (row : Value) : Ends (fun _ => True) (f.onRow depth row) := by
  intro n
  unfold Lambda.onRow RowM.ofEval
  cases f.call depth [row] n with
  | ok x => exact trivial
  | error e => cases e <;> exact trivial

theorem mapM {f : α → RowM β} (h : ∀ a, Ends (fun _ => True) (f a)) (xs : List α) :
    Ends (fun _ => True) (xs.mapM f) := by
  induction xs with
  | nil => exact Ends.pure trivial
  | cons x xs ih =>
      rw [List.mapM_cons]
      exact (h x).bind fun y _ => ih.bind fun ys _ => Ends.pure trivial

end Ends

/-- A query fails as its computation on rows does. -/
theorem Yields.isEvaluation {ctx : QueryContext} {id id' : UInt32} {q : QueryM Sequence} {ty : Ty}
    {c : RowM (List Value)} {P : List Value → Prop} (h : Yields ctx id id' q ty c) (ends : Ends P c)
    {s : Session} (stands : s.Stands ctx id) {e : QueryError}
    (fails : (q.exec ctx s).1 = .error e) : e.IsEvaluation := by
  have ends := ends s.closures
  rw [(h.exec_eq_error_iff stands).mp fails] at ends
  exact ends

namespace Rows

variable {callDepth : Nat} {nullKeysMatch : Bool}

theorem keyed_ends (key : Lambda) (rows : List Value) :
    Ends (fun _ => True) (keyed callDepth key rows) := by
  refine Ends.mapM (fun row => ?_) rows
  exact (Ends.onRow key callDepth row).bind fun _ _ => Ends.pure trivial

/-- Rows that are groupings. -/
def AreGroupings (rows : List Value) : Prop :=
  ∀ row ∈ rows, ∃ outer members, row = Grouping.value outer members

/-- Correlating makes groupings. -/
theorem correlate_ends (outerKey innerKey : Lambda) (outer inner : List Value) :
    Ends AreGroupings (correlate callDepth nullKeysMatch outerKey innerKey outer inner) := by
  refine (keyed_ends innerKey inner).bind fun others _ => ?_
  refine (keyed_ends outerKey outer).bind fun rows _ => Ends.pure ?_
  intro row hrow
  obtain ⟨x, -, rfl⟩ := List.mem_map.mp hrow
  exact ⟨_, _, rfl⟩

/-- **Groupings can be flattened.** -/
theorem flatten_ends {rows : List Value} (h : AreGroupings rows) :
    Ends (fun _ => True) (RowM.ofExcept (flatten rows)) := by
  have each : ∃ joined, rows.mapM flattenOne = .ok joined := by
    induction rows with
    | nil => exact ⟨[], rfl⟩
    | cons row rows ih =>
        obtain ⟨outer, members, rfl⟩ := h _ List.mem_cons_self
        obtain ⟨joined, rest⟩ := ih fun row hrow => h row (List.mem_cons_of_mem _ hrow)
        refine ⟨(pairsOf outer members).map joinRow :: joined, ?_⟩
        rw [List.mapM_cons, flattenOne_grouping, rest]
        rfl
  obtain ⟨joined, each⟩ := each
  rw [flatten, each]
  exact fun n => trivial

theorem filter_ends (predicate : Lambda) (rows : List Value) :
    Ends (· ⊆ rows) (filter callDepth predicate rows) := by
  induction rows with
  | nil => exact Ends.pure (List.Subset.refl _)
  | cons row rows ih =>
      refine (Ends.onRow predicate callDepth row).bind fun verdict _ => ih.bind fun kept hkept => ?_
      refine Ends.pure ?_
      split
      · exact List.cons_subset_cons row hkept
      · exact List.subset_cons_of_subset row hkept

theorem project_ends (selector : Lambda) (rows : List Value) :
    Ends (fun _ => True) (project callDepth selector rows) :=
  Ends.mapM (Ends.onRow selector callDepth) rows

/-- **A left join fails only in evaluating functions.** -/
theorem leftJoin_ends (outerKey innerKey left : Lambda) (outer inner : List Value) :
    Ends (fun _ => True) (leftJoin callDepth nullKeysMatch outerKey innerKey left outer inner) := by
  have joined : Ends (fun _ => True)
      (joinRows callDepth nullKeysMatch outerKey innerKey outer inner) :=
    (correlate_ends outerKey innerKey outer inner).bind fun _ h => flatten_ends h
  exact joined.bind fun rows _ => project_ends left rows

/-- **A full join fails only in evaluating functions.** -/
theorem fullJoin_ends (outerKey innerKey left empty right : Lambda) (outer inner : List Value) :
    Ends (fun _ => True)
      (fullJoin callDepth nullKeysMatch outerKey innerKey left empty right outer inner) := by
  have alone : Ends (fun _ => True)
      (unmatchedRows callDepth nullKeysMatch outerKey innerKey empty outer inner) := by
    refine (correlate_ends innerKey outerKey inner outer).bind fun grouped h => ?_
    refine (filter_ends empty grouped).bind fun kept hkept => ?_
    exact flatten_ends fun row hrow => h row (hkept hrow)
  refine (leftJoin_ends _ _ _ _ _).bind fun _ _ => alone.bind fun rows _ => ?_
  exact (project_ends right rows).bind fun _ _ => Ends.pure trivial

end Rows

end RowQuery
