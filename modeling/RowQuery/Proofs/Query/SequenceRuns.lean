import RowQuery.Proofs.Query.Lawful

/-!
# Queries on sequences as computations on rows

A query on sequences checks types, takes parameter ids, and computes rows.  Where the types are
known in advance, nothing but the rows can fail.

* `Session.Stands` — where a session stands: its memory is right, and the next id is known.
* `Gives` — a query that makes no rows and has an outcome known in advance.
* `Yields` — a query that does what a computation on rows does: it fails if that fails, and else it
  ends with the rows, as a sequence of a type known in advance.
* **`Yields.bind`**, `Gives.bind`, `Yields.read` — queries composed one after the other.
* `Yields.exec_eq_ok`, `Yields.exec_eq_error_iff` — how such a query ends.
* `Computes` — a query that does nothing but compute rows; `Computes.correlate`,
  `Computes.flatten`, `Computes.project`, `Computes.filter`, `Computes.union`, `Computes.concat` —
  the operations.
* `gives_splitAgainst`, `gives_emptyGroup` — queries that make functions.
-/

namespace RowQuery

/-- **Where a session stands**: its memory is right, and `id` is the next parameter id. -/
structure Session.Stands (s : Session) (ctx : QueryContext) (id : UInt32) : Prop where
  remembers : ctx.splitter.Remembers s.split
  next : s.split.ids.next = id

/-- **A query that makes no rows.**  It takes ids, and its outcome is known in advance. -/
def Gives {α : Type} (ctx : QueryContext) (id id' : UInt32) (q : QueryM α) (a : α) : Prop :=
  ∀ s : Session, s.Stands ctx id →
    ∃ s', q.exec ctx s = (.ok a, s') ∧ s'.Stands ctx id' ∧ s'.closures = s.closures

/-- **A query that does what a computation on rows does**, with rows of a type known in advance. -/
def Yields (ctx : QueryContext) (id id' : UInt32) (q : QueryM Sequence) (ty : Ty)
    (c : RowM (List Value)) : Prop :=
  ∀ s : Session, s.Stands ctx id → match c s.closures with
    | .ok (rows, n) =>
        ∃ s', q.exec ctx s = (.ok ⟨ty, rows⟩, s') ∧ s'.Stands ctx id' ∧ s'.closures = n
    | .error e => (q.exec ctx s).1 = .error e

variable {ctx : QueryContext} {id id' id'' : UInt32}

/-! ## Composition -/

/-- **Rows computed from rows.** -/
theorem Yields.bind {q : QueryM Sequence} {f : Sequence → QueryM Sequence} {ty ty' : Ty}
    {c : RowM (List Value)} {d : List Value → RowM (List Value)} (h : Yields ctx id id' q ty c)
    (hf : ∀ rows, Yields ctx id' id'' (f ⟨ty, rows⟩) ty' (d rows)) :
    Yields ctx id id'' (q >>= f) ty' (c >>= d) := by
  intro s stands
  have first := h s stands
  have run : (c >>= d) s.closures = c s.closures >>= fun x => d x.1 x.2 := rfl
  rw [run, QueryM.exec_bind]
  generalize c s.closures = r at first ⊢
  match r with
  | .ok (rows, n) =>
      obtain ⟨s', hq, stands', rfl⟩ := first
      rw [hq]
      exact hf rows s' stands'
  | .error e =>
      have fails : (q.exec ctx s).1 = .error e := first
      show _ = Except.error e
      rcases hq : q.exec ctx s with ⟨r', s'⟩
      rw [hq] at fails
      cases fails
      rfl

theorem Gives.bind {α : Type} {q : QueryM α} {a : α} {f : α → QueryM Sequence} {ty : Ty}
    {c : RowM (List Value)} (h : Gives ctx id id' q a) (hf : Yields ctx id' id'' (f a) ty c) :
    Yields ctx id id'' (q >>= f) ty c := by
  intro s stands
  obtain ⟨s', hq, stands', same⟩ := h s stands
  rw [QueryM.exec_bind, hq, ← same]
  exact hf s' stands'

theorem Yields.read {f : QueryContext → QueryM Sequence} {ty : Ty} {c : RowM (List Value)}
    (h : Yields ctx id id' (f ctx) ty c) : Yields ctx id id' (MonadReader.read >>= f) ty c := h

theorem gives_ofExcept {α : Type} {r : Except QueryError α} {a : α} (h : r = .ok a) :
    Gives ctx id id (QueryM.ofExcept r) a := by
  intro s stands
  rw [h]
  exact ⟨s, rfl, stands, rfl⟩

/-! ## Outcomes -/

section

variable {q : QueryM Sequence} {ty : Ty} {c : RowM (List Value)} {s : Session}

/-- A query ends with the rows of its computation. -/
theorem Yields.exec_eq_ok (h : Yields ctx id id' q ty c) (stands : s.Stands ctx id)
    {rows : List Value} {n : Nat} (run : c s.closures = .ok (rows, n)) :
    ∃ s', q.exec ctx s = (.ok ⟨ty, rows⟩, s') ∧ s'.Stands ctx id' ∧ s'.closures = n := by
  have yields := h s stands
  rw [run] at yields
  exact yields

/-- **A query fails exactly as its computation does.** -/
theorem Yields.exec_eq_error_iff (h : Yields ctx id id' q ty c) (stands : s.Stands ctx id)
    {e : QueryError} : (q.exec ctx s).1 = .error e ↔ c s.closures = .error e := by
  cases run : c s.closures with
  | ok x =>
      obtain ⟨s', ends, -⟩ := h.exec_eq_ok stands run
      simp [ends]
  | error e' =>
      have yields := h s stands
      rw [run] at yields
      have fails : (q.exec ctx s).1 = .error e' := yields
      rw [fails, Except.error.injEq, Except.error.injEq]

end

/-! ## Operations -/

/-- **A query that does nothing but compute rows**, of a type known in advance.  If it fails, the
session is left as it was. -/
def Computes (ctx : QueryContext) (q : QueryM Sequence) (ty : Ty) (c : RowM (List Value)) : Prop :=
  ∀ s : Session, q.exec ctx s = match c s.closures with
    | .ok (rows, closures) => (.ok ⟨ty, rows⟩, { s with closures })
    | .error e => (.error e, s)

namespace Computes

variable {A B : Sequence} {ty : Ty} {f g : Lambda}

section

variable {q : QueryM Sequence} {c : RowM (List Value)} {s s' : Session}

theorem exec_eq_ok_iff (h : Computes ctx q ty c) {result : Sequence} :
    q.exec ctx s = (.ok result, s') ↔ ∃ rows closures, c s.closures = .ok (rows, closures) ∧
      result = ⟨ty, rows⟩ ∧ s' = { s with closures } := by
  rw [h s]
  cases c s.closures with
  | ok x =>
      constructor
      · rintro ⟨⟩
        exact ⟨_, _, rfl, rfl, rfl⟩
      · rintro ⟨_, _, ⟨⟩, rfl, rfl⟩
        rfl
  | error e => simp

theorem exec_eq_error_iff (h : Computes ctx q ty c) {e : QueryError} :
    (q.exec ctx s).1 = .error e ↔ c s.closures = .error e := by
  rw [h s]
  cases c s.closures <;> simp

/-- It leaves splitting as it was. -/
theorem yields (h : Computes ctx q ty c) : Yields ctx id id q ty c := by
  intro s stands
  have run := h s
  generalize c s.closures = r at run ⊢
  match r with
  | .ok (rows, n) => exact ⟨_, run, ⟨stands.remembers, stands.next⟩, rfl⟩
  | .error e => exact congrArg Prod.fst run

/-- Rows computed after a check that succeeds. -/
private theorem checked_map {α : Type} {r : Except QueryError α} {a : α} (check : r = .ok a)
    (type : α → Ty) (c : RowM (List Value)) (n : Nat) :
    (do return ⟨type (← RowM.ofExcept r), ← c⟩ : RowM Sequence) n =
      (c n).map fun x => (⟨type a, x.1⟩, x.2) := by
  rw [check]
  show (c n >>= fun x => pure (Sequence.mk (type a) x.1, x.2)) = _
  cases c n <;> rfl

/-- Rows computed within a query, after a check that succeeds. -/
private theorem ofRows (ctx : QueryContext) {α : Type} {r : Except QueryError α} {a : α}
    (check : r = .ok a) (type : α → Ty) (c : RowM (List Value)) :
    Computes ctx (QueryM.ofRows do return ⟨type (← RowM.ofExcept r), ← c⟩) (type a) c := by
  intro s
  rw [QueryM.exec_ofRows, checked_map check]
  cases c s.closures <;> rfl

/-- A query may read its context. -/
private theorem read {q : QueryContext → QueryM Sequence} {c : RowM (List Value)}
    (h : Computes ctx (q ctx) ty c) : Computes ctx (MonadReader.read >>= q) ty c := h

end

theorem correlate (h : Query.correlatedTy A.elementTy B.elementTy f g = .ok ty) :
    Computes ctx (Source.correlate A B f g) ty
      (Rows.correlate ctx.callDepth ctx.join.nullKeysMatch f g A.rows B.rows) :=
  read (ofRows ctx h (fun t => t) _)

theorem flatten (h : Query.flattenedTy A.elementTy = .ok ty) :
    Computes ctx (Source.flattenWithDefault A) ty (RowM.ofExcept (Rows.flatten A.rows)) :=
  ofRows ctx h (fun t => t) _

theorem project (h : Query.checkUnary "project" f A.elementTy = .ok ()) :
    Computes ctx (Source.project A f) f.retTy (Rows.project ctx.callDepth f A.rows) :=
  read (ofRows ctx h (fun _ => f.retTy) _)

theorem filter (h : Query.checkPredicate f A.elementTy = .ok ()) :
    Computes ctx (Source.filter A f) A.elementTy (Rows.filter ctx.callDepth f A.rows) :=
  read (ofRows ctx h (fun _ => A.elementTy) _)

theorem union (h : A.elementTy = B.elementTy) :
    Computes ctx (Source.union A B) A.elementTy (pure (Rows.union A.rows B.rows)) :=
  ofRows ctx (Query.checkSameElements_eq_ok_iff.mpr h) (fun _ => A.elementTy)
    (pure (Rows.union A.rows B.rows))

theorem concat (h : A.elementTy = B.elementTy) :
    Computes ctx (Source.concat A B) A.elementTy (pure (A.rows ++ B.rows)) :=
  ofRows ctx (Query.checkSameElements_eq_ok_iff.mpr h) (fun _ => A.elementTy)
    (pure (A.rows ++ B.rows))

end Computes

/-! ## Splitting -/

/-- **Splitting a function of two parameters** gives the function that follows the plan. -/
theorem gives_splitAgainst {A : Sequence} {f : Lambda} {plan : MemberPlan} (two : f.arity = 2)
    (planned : ctx.splitter.planOf f A.elementTy = .ok plan) :
    Gives ctx id (id + 1) (Source.splitAgainst A f)
      ((CarrierMap.ofPlan (ctx.splitter.nextCarrier { ids := ⟨id⟩ } A.elementTy) f.params
        plan).splitLambda f) := by
  intro s stands
  obtain ⟨after, remembers, run, ids⟩ := Source.exec_splitAgainst stands.remembers A
    (Source.takesElement_eq_false two _)
  have planned' : ctx.splitter.planOf f (Source.elementTy A) = .ok plan := planned
  rw [planned'] at run ids
  refine ⟨{ s with split := after }, run.trans ?_, ⟨remembers, ?_⟩, rfl⟩
  · rw [← stands.next]
    rfl
  · rw [← stands.next]
    exact congrArg IdSupply.next ids

theorem yields_selectSplit {A : Sequence} {f : Lambda} {plan : MemberPlan} (two : f.arity = 2)
    (planned : ctx.splitter.planOf f A.elementTy = .ok plan) {g : Lambda}
    (hg : g = (CarrierMap.ofPlan (ctx.splitter.nextCarrier { ids := ⟨id⟩ } A.elementTy) f.params
      plan).splitLambda f) :
    Yields ctx id (id + 1) (Source.selectSplit A f) g.retTy
      (Rows.project ctx.callDepth g A.rows) := by
  subst hg
  refine (gives_splitAgainst two planned).bind (Computes.project ?_).yields
  exact if_pos (Ty.isAssignableTo_self A.elementTy)

/-- The predicate that the group of a grouping is empty. -/
def Grouping.isEmpty (id : UInt32) (O I : Ty) : Lambda :=
  let g : Param := ⟨⟨id⟩, "g", Grouping.ty O I⟩
  ⟨[g], .callOf .isEmpty [.member (.param g) Grouping.group (.list I)]⟩

/-- Making the predicate. -/
theorem gives_emptyGroup (made : ctx.Made) {A : Sequence} {O I : Ty}
    (ty : A.elementTy = Grouping.ty O I) :
    Gives ctx id (id + 1) (Source.emptyGroup A) (Grouping.isEmpty id O I) := by
  intro s stands
  have access : ∀ p : Param, p.ty = Grouping.ty O I →
      ctx.schema.memberAccess (.param p) Grouping.group =
        .ok (.member (.param p) Grouping.group (.list I)) := by
    intro p hp
    have members : ctx.schema.members (Expr.param p).ty = _ :=
      (congrArg _ hp).trans (made.members_grouping O I)
    rw [Schema.memberAccess, members]
    rfl
  have run : (Source.emptyGroup A).exec ctx s = _ := Source.exec_emptyGroup A
  have ty' : Source.elementTy A = Grouping.ty O I := ty
  rw [access _ ty', stands.next, ty'] at run
  exact ⟨_, run, ⟨stands.remembers, rfl⟩, rfl⟩

end RowQuery
