import RowQuery.Proofs.Query.Histories
import RowQuery.Proofs.Query.Lawful
import RowQuery.Proofs.Split.Equivalence

/-!
# Composing a plan beside a sequence

One query is composed twice, in two sessions: of sequences, which computes rows, and of plans, which
makes nodes.  The sessions may differ in everything that they count.  Where the query on sequences
succeeds, the query on plans does, and the history of both goes on.

* `IdSupply.Fresh` — the next ids of a supply are none of some given ones.
* `Abreast` — two sessions with a common history.
* `StandsFor` — a plan of a history beside the sequence for which it stands.
* **`Follows`** — a query on plans that goes along with a query on sequences.
* `Follows.bind`, `Follows.ofExcept`, `Follows.read`, `Follows.weaken` — queries composed one after
  the other.
* **`follows_node`** — an operation that computes rows beside one that makes a node.
* `follows_correlate`, `follows_flatten`, `follows_project`, `follows_filter`, `follows_union`,
  `follows_concat` — the operations.
* `follows_splitAgainst`, `follows_emptyGroup` — functions that take an id.
-/

namespace RowQuery

/-! ## Fresh ids -/

/-- **The next ids of a supply are none of the given ones.** -/
def IdSupply.Fresh (ids : IdSupply) (count : Nat) (names : List ParamId) : Prop :=
  ∀ k < count, (⟨ids.next + UInt32.ofNat k⟩ : ParamId) ∉ names

instance (ids : IdSupply) (count : Nat) (names : List ParamId) :
    Decidable (ids.Fresh count names) :=
  inferInstanceAs (Decidable (∀ k < count, _ ∉ names))

namespace IdSupply.Fresh

variable {ids : IdSupply} {m n : Nat} {names : List ParamId}

theorem mono (h : ids.Fresh n names) (hmn : m ≤ n) : ids.Fresh m names :=
  fun k hk => h k (Nat.lt_of_lt_of_le hk hmn)

theorem head (h : ids.Fresh (n + 1) names) : ⟨ids.next⟩ ∉ names := by
  have first := h 0 (Nat.succ_pos n)
  rwa [show UInt32.ofNat 0 = 0 from rfl, UInt32.add_zero] at first

theorem tail (h : ids.Fresh (n + 1) names) : Fresh ⟨ids.next + 1⟩ n names := by
  intro k hk
  have later := h (k + 1) (Nat.succ_lt_succ hk)
  have sum : ids.next + UInt32.ofNat (k + 1) = ids.next + 1 + UInt32.ofNat k := by
    rw [UInt32.ofNat_add, UInt32.add_comm (UInt32.ofNat k), UInt32.add_assoc]
    rfl
  rwa [sum] at later

end IdSupply.Fresh

/-! ## Two sessions -/

/-- **What two sessions have in common**: the context, the tables, the number of the first closure
that is not in the tables, and ids that are declared inside of functions. -/
structure Setting where
  ctx : QueryContext
  catalog : Catalog
  base : Nat
  names : List ParamId

/-- **Two sessions with a common history**: in the left one rows were computed, in the right one
nodes were made.  The memories of both are right, and the next `ids` ids of both are fresh. -/
structure Abreast (c : Setting) (ids : Nat) (records : List Record) (s t : Session) : Prop where
  history : History c.ctx c.catalog c.base records
  base_le : c.base ≤ s.closures
  after : ∀ x ∈ records, x.plan.id < t.nodes ∧ x.stop ≤ s.closures
  remembersLeft : c.ctx.splitter.Remembers s.split
  remembersRight : c.ctx.splitter.Remembers t.split
  freshLeft : s.split.ids.Fresh ids c.names
  freshRight : t.split.ids.Fresh ids c.names

/-- **A plan that stands for a sequence.** -/
def StandsFor (records : List Record) (rows : Sequence) (plan : Plan) : Prop :=
  ∃ r ∈ records, r.rows = rows ∧ r.plan = plan

theorem StandsFor.elementTy_eq {records : List Record} {rows : Sequence} {plan : Plan}
    (h : StandsFor records rows plan) : rows.elementTy = plan.elementTy := by
  obtain ⟨r, -, rfl, rfl⟩ := h
  exact r.types.symm

theorem StandsFor.mono {records later : List Record} {rows : Sequence} {plan : Plan}
    (h : StandsFor records rows plan) (sub : records ⊆ later) : StandsFor later rows plan := by
  obtain ⟨r, hr, same⟩ := h
  exact ⟨r, sub hr, same⟩

/-- **A query on plans that goes along with a query on sequences.**  `R` relates their results, and
of `ids` fresh ids `ids'` are left. -/
def Follows {α β : Type} (c : Setting) (ids ids' : Nat) (records : List Record)
    (R : List Record → α → β → Prop) (q : QueryM α) (q' : QueryM β) : Prop :=
  ∀ (s t : Session), Abreast c ids records s t → ∀ (a : α) (s' : Session),
    q.exec c.ctx s = (.ok a, s') →
    ∃ b t' later, q'.exec c.ctx t = (.ok b, t') ∧ records ⊆ later ∧ Abreast c ids' later s' t' ∧
      R later a b

variable {c : Setting} {ids ids' ids'' : Nat} {records : List Record}

namespace Follows

variable {α β γ δ : Type} {R : List Record → α → β → Prop} {R' : List Record → γ → δ → Prop}

/-- **Queries composed one after the other.** -/
theorem bind {q : QueryM α} {q' : QueryM β} {f : α → QueryM γ} {f' : β → QueryM δ}
    (h : Follows c ids ids' records R q q')
    (hf : ∀ later a b, records ⊆ later → R later a b → Follows c ids' ids'' later R' (f a) (f' b)) :
    Follows c ids ids'' records R' (q >>= f) (q' >>= f') := by
  intro s t abreast x s'' run
  obtain ⟨a, s', first, second⟩ := QueryM.exec_bind_eq_ok_iff.mp run
  obtain ⟨b, t', later, first', sub, abreast', hab⟩ := h s t abreast a s' first
  obtain ⟨y, t'', last, second', sub', abreast'', hxy⟩ :=
    hf later a b sub hab s' t' abreast' x s'' second
  exact ⟨y, t'', last, QueryM.exec_bind_eq_ok_iff.mpr ⟨b, t', first', second'⟩,
    List.Subset.trans sub sub', abreast'', hxy⟩

theorem ofExcept (r : Except QueryError α) :
    Follows c ids ids records (fun _ a b => a = b) (QueryM.ofExcept r) (QueryM.ofExcept r) := by
  intro s t abreast a s' run
  rw [QueryM.exec_ofExcept, Prod.mk.injEq] at run
  obtain ⟨rfl, rfl⟩ := run
  exact ⟨a, t, records, rfl, List.Subset.refl _, abreast, rfl⟩

theorem read {f : QueryContext → QueryM α} {f' : QueryContext → QueryM β}
    (h : Follows c ids ids' records R (f c.ctx) (f' c.ctx)) :
    Follows c ids ids' records R (MonadReader.read >>= f) (MonadReader.read >>= f') := h

theorem readLeft {f : QueryContext → QueryM α} {q' : QueryM β}
    (h : Follows c ids ids' records R (f c.ctx) q') :
    Follows c ids ids' records R (MonadReader.read >>= f) q' := h

theorem weaken {q : QueryM α} {q' : QueryM β} {m n : Nat} (h : Follows c ids ids' records R q q')
    (before : ids ≤ m) (after : n ≤ ids') : Follows c m n records R q q' := by
  intro s t abreast a s' run
  obtain ⟨b, t', later, run', sub, abreast', hab⟩ := h s t { abreast with
    freshLeft := abreast.freshLeft.mono before
    freshRight := abreast.freshRight.mono before } a s' run
  exact ⟨b, t', later, run', sub, { abreast' with
    freshLeft := abreast'.freshLeft.mono after
    freshRight := abreast'.freshRight.mono after }, hab⟩

end Follows

/-! ## Nodes -/

/-- **One more record.**  Rows that were computed beside a new node, which computes them again. -/
theorem Abreast.snoc {s t : Session} (abreast : Abreast c ids records s t) {r : Record}
    (inputs : List Record) (earlier : inputs ⊆ records)
    (plans : r.plan.inputs = inputs.map Record.plan) (node : r.plan.id = t.nodes)
    (start : r.start = s.closures) (computes : r.Computes c.ctx c.catalog c.base inputs) :
    Abreast c ids (records ++ [r]) { s with closures := r.stop } { t with nodes := t.nodes + 1 } where
  history := by
    refine .snoc inputs abreast.history earlier plans (fun x hx => ?_) ?_ computes
    · rw [node, start]
      exact abreast.after x hx
    · rw [start]
      exact abreast.base_le
  base_le := abreast.base_le.trans (start ▸ r.start_le_stop)
  after x hx := by
    have le := r.start_le_stop
    rcases List.mem_append.mp hx with hx | hx
    · obtain ⟨lt, le'⟩ := abreast.after x hx
      exact ⟨Nat.lt_succ_of_lt lt, by show x.stop ≤ r.stop; omega⟩
    · obtain rfl := List.mem_singleton.mp hx
      exact ⟨by rw [node]; exact Nat.lt_succ_self _, Nat.le_refl _⟩
  remembersLeft := abreast.remembersLeft
  remembersRight := abreast.remembersRight
  freshLeft := abreast.freshLeft
  freshRight := abreast.freshRight

/-- **An operation that computes rows beside one that makes a node.**  The check of the node
succeeds where there are rows, and the operation of the node agrees with the computation. -/
theorem follows_node {α : Type} {m : RowM Sequence} {check : Except QueryError α}
    {node : α → NodeId → Plan} (inputs : List Record) (earlier : inputs ⊆ records)
    (checked : ∀ n rows k, m n = .ok (rows, k) →
      ∃ a, check = .ok a ∧ ∀ i, (node a i).elementTy = rows.elementTy)
    (root : ∀ a i, (node a i).id = i ∧ (node a i).inputs = inputs.map Record.plan)
    (again : ∀ w : Pairing, w.Shares c.base → (∀ x ∈ inputs, x.rows.Alike w x.rows) →
      Agree w Sequence.Alike m m)
    (agree : ∀ (w : Pairing) (xs : List Sequence) (a : α) (i : NodeId), w.Shares c.base →
      List.Forall₂ (fun x y => x.rows.Alike w y) inputs xs → check = .ok a →
      Agree w Sequence.Alike m ((node a i).compute c.ctx c.catalog xs)) :
    Follows c ids ids records StandsFor (QueryM.ofRows m) (do
      let a ← QueryM.ofExcept check
      return node a (← QueryM.newNode)) := by
  intro s t abreast rows s' run
  obtain ⟨stop, computed, rfl⟩ := (QueryM.exec_ofRows_eq_ok_iff c.ctx).mp run
  obtain ⟨a, ok, types⟩ := checked _ _ _ computed
  obtain ⟨id_eq, inputs_eq⟩ := root a t.nodes
  have computes : ∀ (w : Pairing) (xs : List Sequence), w.left = s.closures → w.Shares c.base →
      List.Forall₂ (fun x y => x.rows.Alike w y) inputs xs →
      ∃ k rows', stop = s.closures + k ∧
        (node a t.nodes).compute c.ctx c.catalog xs w.right = .ok (rows', w.right + k) ∧
        rows.Alike (w.grow k) rows' := by
    intro w xs left shares alike
    rw [← left] at computed ⊢
    exact (agree w xs a t.nodes shares alike ok).eq_ok computed
  have there : ∀ x ∈ inputs, x.rows.Alike (.known s.closures s.closures) x.rows := fun x hx =>
    Sequence.Alike.persistent (Pairing.known_mono (abreast.after x (earlier hx)).2) x.alike_self
  have shares : (Pairing.known s.closures s.closures).Shares c.base := fun i hi =>
    ⟨rfl, Nat.lt_of_lt_of_le hi abreast.base_le, Nat.lt_of_lt_of_le hi abreast.base_le⟩
  obtain ⟨k, rows', rfl, computed', self⟩ := (again _ shares there).eq_ok computed
  obtain rfl : rows = rows' := congrArg Prod.fst (Except.ok.inj (computed.symm.trans computed'))
  let r : Record := ⟨node a t.nodes, rows, s.closures, s.closures + k, types _,
    Nat.le_add_right _ _, Sequence.Alike.persistent (Pairing.grow_known_le _ _) self⟩
  refine ⟨node a t.nodes, { t with nodes := t.nodes + 1 }, records ++ [r], ?_,
    List.subset_append_left _ _, abreast.snoc inputs earlier inputs_eq id_eq rfl computes,
    r, List.mem_append_right _ (List.mem_singleton.mpr rfl), rfl, rfl⟩
  rw [ok]
  rfl

/-! ## Operations -/

/-- Rows that were computed after a check passed it. -/
private theorem checked_eq_ok {α : Type} {r : Except QueryError α} (ty : α → Ty)
    {d : RowM (List Value)} {n k : Nat} {rows : Sequence}
    (h : (do return ⟨ty (← RowM.ofExcept r), ← d⟩ : RowM Sequence) n = .ok (rows, k)) :
    ∃ a, r = .ok a ∧ ty a = rows.elementTy := by
  obtain ⟨a, j, ok, h⟩ := RowM.bind_eq_ok_iff.mp h
  obtain ⟨values, l, -, h⟩ := RowM.bind_eq_ok_iff.mp h
  cases h
  exact ⟨a, (RowM.ofExcept_eq_ok_iff.mp ok).1, rfl⟩

section

variable {A B : Sequence} {P Q : Plan} {f f' g g' : Lambda}

theorem follows_correlate (hA : StandsFor records A P) (hB : StandsFor records B Q)
    (hf : f.Alike f') (hg : g.Alike g') :
    Follows c ids ids records StandsFor (Source.correlate A B f g) (Source.correlate P Q f' g') := by
  obtain ⟨x, hx, rfl, rfl⟩ := hA
  obtain ⟨y, hy, rfl, rfl⟩ := hB
  refine Follows.readLeft (follows_node [x, y] (by simp [hx, hy]) ?_ (fun _ _ => ⟨rfl, rfl⟩) ?_ ?_)
  · intro n rows k h
    obtain ⟨ty, check, types⟩ := checked_eq_ok id h
    rw [Query.correlatedTy_congr hf hg, ← x.types, ← y.types] at check
    exact ⟨ty, check, fun _ => types⟩
  · intro w _ h
    exact Sequence.correlate_agree (h x (by simp)) (h y (by simp)) (.refl f) (.refl g)
  · rintro w xs ty i - (_ | ⟨hx', _ | ⟨hy', _ | _⟩⟩) -
    exact Sequence.correlate_agree hx' hy' hf hg

theorem follows_flatten (hA : StandsFor records A P) :
    Follows c ids ids records StandsFor (Source.flattenWithDefault A)
      (Source.flattenWithDefault P) := by
  obtain ⟨x, hx, rfl, rfl⟩ := hA
  refine follows_node [x] (by simp [hx]) ?_ (fun _ _ => ⟨rfl, rfl⟩) ?_ ?_
  · intro n rows k h
    obtain ⟨ty, check, types⟩ := checked_eq_ok id h
    rw [← x.types] at check
    exact ⟨ty, check, fun _ => types⟩
  · intro w _ h
    exact Sequence.flatten_agree (h x (by simp))
  · rintro w xs ty i - (_ | ⟨hx', _ | _⟩) -
    exact Sequence.flatten_agree hx'

theorem follows_project (hA : StandsFor records A P) (hf : f.Alike f') :
    Follows c ids ids records StandsFor (Source.project A f) (Source.project P f') := by
  obtain ⟨x, hx, rfl, rfl⟩ := hA
  refine Follows.readLeft (follows_node [x] (by simp [hx]) ?_ (fun _ _ => ⟨rfl, rfl⟩) ?_ ?_)
  · intro n rows k h
    obtain ⟨_, check, types⟩ := checked_eq_ok (fun _ => f.retTy) h
    rw [Query.checkUnary_congr "project" hf.paramTys_eq, ← x.types] at check
    exact ⟨_, check, fun _ => hf.retTy_eq.symm.trans types⟩
  · intro w _ h
    exact Sequence.project_agree (h x (by simp)) (.refl f)
  · rintro w xs _ i - (_ | ⟨hx', _ | _⟩) -
    exact Sequence.project_agree hx' hf

theorem follows_filter (hA : StandsFor records A P) (hf : f.Alike f') :
    Follows c ids ids records StandsFor (Source.filter A f) (Source.filter P f') := by
  obtain ⟨x, hx, rfl, rfl⟩ := hA
  refine Follows.readLeft (follows_node [x] (by simp [hx]) ?_ (fun _ _ => ⟨rfl, rfl⟩) ?_ ?_)
  · intro n rows k h
    obtain ⟨_, check, types⟩ := checked_eq_ok (fun _ => x.rows.elementTy) h
    rw [Query.checkPredicate_congr hf, ← x.types] at check
    exact ⟨_, check, fun _ => x.types.trans types⟩
  · intro w _ h
    exact Sequence.filter_agree (h x (by simp)) (.refl f)
  · rintro w xs _ i - (_ | ⟨hx', _ | _⟩) -
    exact Sequence.filter_agree hx' hf

theorem follows_union (hA : StandsFor records A P) (hB : StandsFor records B Q) :
    Follows c ids ids records StandsFor (Source.union A B) (Source.union P Q) := by
  obtain ⟨x, hx, rfl, rfl⟩ := hA
  obtain ⟨y, hy, rfl, rfl⟩ := hB
  refine follows_node [x, y] (by simp [hx, hy]) ?_ (fun _ _ => ⟨rfl, rfl⟩) ?_ ?_
  · intro n rows k h
    obtain ⟨_, check, types⟩ := checked_eq_ok (fun _ => x.rows.elementTy)
      (d := pure (Rows.union x.rows.rows y.rows.rows)) h
    rw [← x.types, ← y.types] at check
    exact ⟨_, check, fun _ => x.types.trans types⟩
  · intro w _ h
    exact Sequence.union_agree (h x (by simp)) (h y (by simp))
  · rintro w xs _ i - (_ | ⟨hx', _ | ⟨hy', _ | _⟩⟩) -
    exact Sequence.union_agree hx' hy'

theorem follows_concat (hA : StandsFor records A P) (hB : StandsFor records B Q) :
    Follows c ids ids records StandsFor (Source.concat A B) (Source.concat P Q) := by
  obtain ⟨x, hx, rfl, rfl⟩ := hA
  obtain ⟨y, hy, rfl, rfl⟩ := hB
  refine follows_node [x, y] (by simp [hx, hy]) ?_ (fun _ _ => ⟨rfl, rfl⟩) ?_ ?_
  · intro n rows k h
    obtain ⟨_, check, types⟩ := checked_eq_ok (fun _ => x.rows.elementTy)
      (d := pure (x.rows.rows ++ y.rows.rows)) h
    rw [← x.types, ← y.types] at check
    exact ⟨_, check, fun _ => x.types.trans types⟩
  · intro w _ h
    exact Sequence.concat_agree (h x (by simp)) (h y (by simp))
  · rintro w xs _ i - (_ | ⟨hx', _ | ⟨hy', _ | _⟩⟩) -
    exact Sequence.concat_agree hx' hy'

end

/-! ## Functions that take an id -/

theorem Abreast.takeId {s t : Session} (abreast : Abreast c (ids + 1) records s t)
    {left right : SplitState} (remembersLeft : c.ctx.splitter.Remembers left)
    (remembersRight : c.ctx.splitter.Remembers right)
    (idsLeft : left.ids = ⟨s.split.ids.next + 1⟩) (idsRight : right.ids = ⟨t.split.ids.next + 1⟩) :
    Abreast c ids records { s with split := left } { t with split := right } where
  history := abreast.history
  base_le := abreast.base_le
  after := abreast.after
  remembersLeft := remembersLeft
  remembersRight := remembersRight
  freshLeft := by
    show left.ids.Fresh ids c.names
    rw [idsLeft]
    exact abreast.freshLeft.tail
  freshRight := by
    show right.ids.Fresh ids c.names
    rw [idsRight]
    exact abreast.freshRight.tail

/-- **The function of one element**, in both sessions. -/
theorem follows_splitAgainst {A : Sequence} {P : Plan} {f : Lambda} (hA : StandsFor records A P)
    (sub : f.body.declared ⊆ c.names) :
    Follows c (ids + 1) ids records (fun _ f g => f.Alike g) (Source.splitAgainst A f)
      (Source.splitAgainst P f) := by
  have types : Source.elementTy A = Source.elementTy P := hA.elementTy_eq
  cases whole : Source.takesElement f (Source.elementTy A) with
  | true =>
      have left : Source.splitAgainst A f = pure f := by
        rw [Source.splitAgainst, whole]
        rfl
      have right : Source.splitAgainst P f = pure f := by
        rw [Source.splitAgainst, ← types, whole]
        rfl
      rw [left, right]
      intro s t abreast a s' run
      cases run
      exact ⟨f, t, records, rfl, List.Subset.refl _, { abreast with
        freshLeft := abreast.freshLeft.mono (Nat.le_succ ids)
        freshRight := abreast.freshRight.mono (Nat.le_succ ids) }, .refl f⟩
  | false =>
      intro s t abreast a s' run
      obtain ⟨left, remembersLeft, runLeft, idsLeft⟩ :=
        Source.exec_splitAgainst abreast.remembersLeft A whole
      obtain ⟨right, remembersRight, runRight, idsRight⟩ :=
        Source.exec_splitAgainst abreast.remembersRight P (types ▸ whole)
      rw [runLeft, Prod.mk.injEq] at run
      obtain ⟨outcome, rfl⟩ := run
      rw [← types] at runRight idsRight
      cases planned : c.ctx.splitter.planOf f (Source.elementTy A) with
      | error e =>
          rw [planned] at outcome
          cases outcome
      | ok plan =>
          rw [planned] at outcome runRight idsLeft idsRight
          cases outcome
          obtain ⟨check, -, hlen⟩ := Splitter.planOf_eq_ok planned
          refine ⟨_, _, records, runRight, List.Subset.refl _,
            abreast.takeId remembersLeft remembersRight idsLeft idsRight, ?_⟩
          exact .split check hlen rfl (fun h => abreast.freshLeft.head (sub h))
            fun h => abreast.freshRight.head (sub h)

/-- Member access depends on the type of the object. -/
theorem Schema.memberAccess_param {schema : Schema} {p q : Param} (types : p.ty = q.ty)
    {name : String} {access : Expr} (h : schema.memberAccess (.param p) name = .ok access) :
    ∃ field ty, access = .member (.param p) field ty ∧
      schema.memberAccess (.param q) name = .ok (.member (.param q) field ty) := by
  obtain ⟨fields, hfields, h⟩ := bind_eq_ok_iff.mp h
  have hfields' : schema.members (Expr.param q).ty = .ok fields := by
    rw [← hfields]
    exact congrArg _ types.symm
  unfold memberAccess
  rw [hfields']
  split at h
  case h_1 field found =>
    cases h
    exact ⟨field.name, field.ty, rfl, by simp only [bind, Except.bind, found]; rfl⟩
  case h_2 => cases h

/-- Predicates that a member is empty, of parameters of one type. -/
private theorem isEmpty_alike {p q : Param} (types : p.ty = q.ty) (field : String) (ty : Ty) :
    Lambda.Alike ⟨[p], .callOf .isEmpty [.member (.param p) field ty]⟩
      ⟨[q], .callOf .isEmpty [.member (.param q) field ty]⟩ := by
  -- Both are what splitting makes of the predicate on the member itself.
  let f : Lambda := ⟨[⟨⟨0⟩, field, ty⟩], .callOf .isEmpty [.param ⟨⟨0⟩, field, ty⟩]⟩
  let plan : MemberPlan := ⟨p.ty, [⟨0, field, ty⟩]⟩
  have fresh : ∀ id, id ∉ f.body.declared := by simp [f, Expr.callOf, Expr.declared]
  have split : Lambda.Alike ((CarrierMap.ofPlan p f.params plan).splitLambda f)
      ((CarrierMap.ofPlan q f.params plan).splitLambda f) :=
    .split rfl rfl types (fresh _) (fresh _)
  exact split

/-- **The predicate that a group is empty**, in both sessions. -/
theorem follows_emptyGroup {A : Sequence} {P : Plan} (hA : StandsFor records A P) :
    Follows c (ids + 1) ids records (fun _ f g => f.Alike g) (Source.emptyGroup A)
      (Source.emptyGroup P) := by
  intro s t abreast a s' run
  rw [Source.exec_emptyGroup, Prod.mk.injEq] at run
  obtain ⟨outcome, rfl⟩ := run
  cases access : c.ctx.schema.memberAccess (.param ⟨⟨s.split.ids.next⟩, "g", Source.elementTy A⟩)
    Grouping.group with
  | error e =>
      rw [access] at outcome
      cases outcome
  | ok group =>
      obtain ⟨field, ty, rfl, access'⟩ := Schema.memberAccess_param
        (q := ⟨⟨t.split.ids.next⟩, "g", Source.elementTy P⟩) hA.elementTy_eq access
      rw [access] at outcome
      cases outcome
      have later : Abreast c ids records
          { s with split := { s.split with ids := ⟨s.split.ids.next + 1⟩ } }
          { t with split := { t.split with ids := ⟨t.split.ids.next + 1⟩ } } :=
        abreast.takeId abreast.remembersLeft abreast.remembersRight rfl rfl
      have alike := isEmpty_alike (p := ⟨⟨s.split.ids.next⟩, "g", Source.elementTy A⟩)
        (q := ⟨⟨t.split.ids.next⟩, "g", Source.elementTy P⟩) hA.elementTy_eq field ty
      refine ⟨_, _, records, (Source.exec_emptyGroup P).trans ?_, List.Subset.refl _, later, alike⟩
      rw [access']
      rfl

end RowQuery
