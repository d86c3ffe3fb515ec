import Mathlib.Data.List.Dedup
import RowQuery.Proofs.Query.ExecutedPlans
import RowQuery.Proofs.Query.PlanNodes

/-!
# Every node is evaluated once

An execution keeps the rows of the nodes that have several readers, and only of these.  That is
enough: a node is met a second time only if it has several readers, and by then its rows are kept,
since no node is below itself.

* `ExecM.Lands` — computations of execution that end in an expected way: with a result and a state
  that have a property, or with a failure and a state that have another one.
* `Underway` — what holds in the middle of an execution that has not failed.
* `Underway.begin`, `Underway.finish`, `Underway.meetAgain` — what one node preserves.
* **`Plan.run_lands`** — what running a whole plan preserves, by induction on the plan.
* **`Plan.execution_evaluates_once`** — no node is evaluated twice; an execution that succeeds has
  evaluated all of them.
-/

namespace RowQuery

/-! ## Expected ways to end -/

section

variable {α β : Type}

/-- **Computations of execution that end in an expected way**, from a state. -/
def ExecM.Lands (P : α → Execution → Prop) (Q : QueryError → Execution → Prop) (m : ExecM α)
    (e : Execution) : Prop :=
  match m.run.run e with
  | (.ok a, e') => P a e'
  | (.error x, e') => Q x e'

namespace ExecM

variable {P : α → Execution → Prop} {P' : β → Execution → Prop} {Q : QueryError → Execution → Prop}
  {m m' : ExecM α} {e e' : Execution}

theorem Lands.pure {a : α} (h : P a e) : Lands P Q (Pure.pure a) e := h

theorem Lands.of_run_eq (h : Lands P Q m' e') (same : m.run.run e = m'.run.run e') :
    Lands P Q m e := by
  rw [Lands, same]
  exact h

/-- The two ways to end. -/
theorem Lands.ok_or_error (h : Lands P Q m e) :
    (∃ a e', m.run.run e = (.ok a, e') ∧ P a e') ∨
      ∃ x e', m.run.run e = (.error x, e') ∧ Q x e' := by
  unfold Lands at h
  generalize m.run.run e = r at h ⊢
  match r with
  | (.ok a, e') => exact .inl ⟨a, e', rfl, h⟩
  | (.error x, e') => exact .inr ⟨x, e', rfl, h⟩

/-- The second part runs where the first one landed. -/
theorem Lands.bind {f : α → ExecM β} (h : Lands P Q m e)
    (hf : ∀ a e', P a e' → Lands P' Q (f a) e') : Lands P' Q (m >>= f) e := by
  unfold Lands at h ⊢
  simp only [ExceptT.run_bind, StateT.run_bind]
  generalize m.run.run e = r at h ⊢
  match r with
  | (.ok a, e') => exact hf a e' h
  | (.error x, e') => exact h

/-- Operations on rows change nothing but the number of the next closure. -/
theorem Lands.ofRows {c : RowM α} {R : α → Prop} {S : QueryError → Prop} (h : c.Lands R S)
    (ok : ∀ a n, R a → P a { e with closures := n }) (fails : ∀ x, S x → Q x e) :
    Lands P Q (ofRows c) e := by
  have h := h e.closures
  unfold Lands ExecM.ofRows
  simp only [ExceptT.run_mk, StateT.run]
  generalize c e.closures = r at h ⊢
  match r with
  | .ok (a, n) => exact ok a n h
  | .error x => exact fails x h

variable {uses : NodeId → Nat} {id : NodeId} {evaluate : ExecM Sequence}
  {P P' : Sequence → Execution → Prop}

/-- **A node whose rows are not kept** lands where its evaluation does. -/
theorem Lands.node (absent : e.kept.lookup id = none)
    (h : Lands P' Q evaluate { e with evaluated := id :: e.evaluated })
    (keep : ∀ rows e', P' rows e' →
      P rows (if uses id > 1 then { e' with kept := (id, rows) :: e'.kept } else e')) :
    Lands P Q (node uses id evaluate) e := by
  have state : (get : ExecM Execution).run.run e = (.ok e, e) := rfl
  have mark : (modify fun execution : Execution =>
      { execution with evaluated := id :: execution.evaluated } : ExecM PUnit).run.run e =
      (.ok ⟨⟩, { e with evaluated := id :: e.evaluated }) := rfl
  rw [ExecM.node]
  refine of_run_eq ?_ (bind_of_ok state _)
  rw [absent]
  refine of_run_eq (h.bind fun rows e' hrows => ?_) (bind_of_ok mark _)
  have kept := keep rows e' hrows
  by_cases several : uses id > 1
  · rw [if_pos several] at kept ⊢
    exact kept
  · rw [if_neg several] at kept ⊢
    exact kept

end ExecM

end

/-! ## In the middle of an execution -/

/-- **No node was evaluated twice**, and no other than those of the root. -/
def Execution.Once (root : Plan) (e : Execution) : Prop :=
  e.evaluated.Nodup ∧ e.evaluated ⊆ root.nodes.map Plan.id

/-- **What holds in the middle of an execution.**  The nodes `met` so far have been evaluated; of
these, the ones that do not run any more have met their inputs, and are kept if they have several
readers.  What is kept is `Good`. -/
structure Underway (root : Plan) (Good : Plan → Sequence → Prop) (running : List Plan)
    (met : List NodeId) (e : Execution) : Prop where
  once : e.Once root
  evaluated_iff : ∀ {id}, id ∈ e.evaluated ↔ id ∈ met
  kept : ∀ q ∈ root.nodes, q.id ∈ met → q ∉ running → 1 < root.uses q.id →
    ∃ rows, e.kept.lookup q.id = some rows
  met_of_kept : ∀ {id rows}, e.kept.lookup id = some rows → id ∈ met
  good_of_kept : ∀ q ∈ root.nodes, ∀ {rows}, e.kept.lookup q.id = some rows → Good q rows
  closed : ∀ q ∈ root.nodes, q.id ∈ met → q ∉ running → ∀ x ∈ q.inputs, x.id ∈ met

namespace Underway

variable {root p : Plan} {Good : Plan → Sequence → Prop} {running : List Plan} {met : List NodeId}
  {e : Execution}

/-- Closures do not matter. -/
theorem closures (h : Underway root Good running met e) (n : Nat) :
    Underway root Good running met { e with closures := n } :=
  ⟨h.once, h.evaluated_iff, h.kept, h.met_of_kept, h.good_of_kept, h.closed⟩

/-- Meeting a node once more changes nothing. -/
theorem meetAgain (h : Underway root Good running met e) {id : NodeId} (again : id ∈ met) :
    Underway root Good running (id :: met) e := by
  have same : ∀ {i}, i ∈ id :: met ↔ i ∈ met := mem_cons_iff_of_mem again
  exact ⟨h.once, h.evaluated_iff.trans same.symm, fun q hq hmet => h.kept q hq (same.mp hmet),
    fun hk => same.mpr (h.met_of_kept hk), h.good_of_kept,
    fun q hq hmet hrun x hx => same.mpr (h.closed q hq (same.mp hmet) hrun x hx)⟩

/-- A node that is met for the first time begins to run. -/
theorem begin (h : Underway root Good running met e) (identified : root.Identified)
    (hp : p ∈ root.nodes) (new : p.id ∉ met) :
    Underway root Good (p :: running) (p.id :: met)
      { e with evaluated := p.id :: e.evaluated } := by
  have older : ∀ q ∈ root.nodes, q.id ∈ p.id :: met → q ∉ p :: running →
      q.id ∈ met ∧ q ∉ running := by
    intro q hq hmet hrun
    rw [List.mem_cons, not_or] at hrun
    refine ⟨(List.mem_cons.mp hmet).resolve_left fun same => ?_, hrun.2⟩
    exact hrun.1 (identified q hq p hp same)
  refine ⟨⟨List.nodup_cons.mpr ⟨?_, h.once.1⟩, List.cons_subset.mpr ⟨?_, h.once.2⟩⟩, ?_, ?_,
    fun hk => List.mem_cons_of_mem _ (h.met_of_kept hk), h.good_of_kept, ?_⟩
  · exact fun old => new (h.evaluated_iff.mp old)
  · exact List.mem_map_of_mem hp
  · intro id
    rw [List.mem_cons, List.mem_cons, h.evaluated_iff]
  · intro q hq hmet hrun
    obtain ⟨hmet, hrun⟩ := older q hq hmet hrun
    exact h.kept q hq hmet hrun
  · intro q hq hmet hrun x hx
    obtain ⟨hmet, hrun⟩ := older q hq hmet hrun
    exact List.mem_cons_of_mem _ (h.closed q hq hmet hrun x hx)

/-- **A node that has run** is kept if it has several readers. -/
theorem finish (h : Underway root Good (p :: running) met e) (identified : root.Identified)
    (hp : p ∈ root.nodes) (inputs_met : ∀ x ∈ p.inputs, x.id ∈ met) (hmet : p.id ∈ met)
    {rows : Sequence} (good : Good p rows) :
    Underway root Good running met
      (if root.uses p.id > 1 then { e with kept := (p.id, rows) :: e.kept } else e) := by
  have closed : ∀ q ∈ root.nodes, q.id ∈ met → q ∉ running → ∀ x ∈ q.inputs, x.id ∈ met := by
    intro q hq hqmet hrun
    by_cases same : q = p
    · exact same ▸ inputs_met
    · exact h.closed q hq hqmet (List.not_mem_cons_of_ne_of_not_mem same hrun)
  have others : ∀ q ∈ root.nodes, q.id ∈ met → q ∉ running → 1 < root.uses q.id → q ≠ p →
      ∃ rows, e.kept.lookup q.id = some rows := fun q hq hqmet hrun several other =>
    h.kept q hq hqmet (List.not_mem_cons_of_ne_of_not_mem other hrun) several
  by_cases several : root.uses p.id > 1
  · rw [if_pos several]
    have found := ExecM.lookup_keep p.id rows e.kept
    refine ⟨h.once, h.evaluated_iff, fun q hq hqmet hrun hq' => ?_, fun {i rows'} hk => ?_,
      fun q hq rows' hk => ?_, closed⟩
    · rw [found]
      by_cases same : q.id = p.id
      · exact ⟨rows, if_pos same⟩
      · rw [if_neg same]
        exact others q hq hqmet hrun hq' (ne_of_apply_ne Plan.id same)
    · rw [found] at hk
      by_cases same : i = p.id
      · exact same ▸ hmet
      · rw [if_neg same] at hk
        exact h.met_of_kept hk
    · rw [found] at hk
      by_cases same : q.id = p.id
      · rw [if_pos same] at hk
        cases hk
        exact identified q hq p hp same ▸ good
      · rw [if_neg same] at hk
        exact h.good_of_kept q hq hk
  · rw [if_neg several]
    refine ⟨h.once, h.evaluated_iff, fun q hq hqmet hrun hq' => ?_, h.met_of_kept, h.good_of_kept,
      closed⟩
    refine others q hq hqmet hrun hq' ?_
    rintro rfl
    exact several hq'

/-- As soon as no node runs any more, what is below a node that was met was met, too. -/
theorem met_nodes (h : Underway root Good [] met e) (hp : p ∈ root.nodes) (hmet : p.id ∈ met) :
    ∀ q ∈ p.nodes, q.id ∈ met := by
  induction p using Plan.induct with
  | h p ih =>
      intro q hq
      rcases Plan.mem_nodes_iff.mp hq with rfl | ⟨x, hx, hq⟩
      · exact hmet
      · have below := Plan.nodes_subset hp (Plan.mem_nodes_of_mem_inputs hx)
        exact ih x hx below (h.closed p hp hmet List.not_mem_nil x hx) q hq

end Underway

/-! ## Running -/

section

variable {ctx : QueryContext} {catalog : Catalog} {root : Plan} {Good : Plan → Sequence → Prop}
  {Allowed : QueryError → Prop}

/-- What is proved of running a node, on a walk over a root. -/
def RunsOnce (ctx : QueryContext) (catalog : Catalog) (root : Plan) (Good : Plan → Sequence → Prop)
    (Allowed : QueryError → Prop) (p : Plan) : Prop :=
  ∀ (running : List Plan) (met : List NodeId) (e : Execution),
    Underway root Good running met e → p.walk met <:+ root.walk [] →
    (∀ q ∈ running, sizeOf p < sizeOf q) →
    ExecM.Lands (fun rows e' => Underway root Good running (p.walk met) e' ∧ Good p rows)
      (fun x e' => Allowed x ∧ e'.Once root) (p.run ctx catalog root.uses) e

/-- The inputs of a node run one after the other. -/
private theorem inputs_runOnce {inputs : List Plan}
    (h : ∀ x ∈ inputs, RunsOnce ctx catalog root Good Allowed x) {running : List Plan}
    (below : ∀ x ∈ inputs, ∀ q ∈ running, sizeOf x < sizeOf q) :
    ∀ (met : List NodeId) (e : Execution), Underway root Good running met e →
      inputs.foldl (fun met q => q.walk met) met <:+ root.walk [] →
      ExecM.Lands
        (fun rows e' => Underway root Good running (inputs.foldl (fun met q => q.walk met) met) e' ∧
          List.Forall₂ Good inputs rows)
        (fun x e' => Allowed x ∧ e'.Once root)
        (inputs.mapM (Plan.run ctx catalog root.uses)) e := by
  induction inputs with
  | nil => exact fun met e underway _ => .pure ⟨underway, .nil⟩
  | cons x xs ih =>
      intro met e underway hsuffix
      have first : x.walk met <:+ root.walk [] :=
        (Plan.suffix_foldl_walk (fun q _ => q.suffix_walk) _).trans hsuffix
      rw [List.mapM_cons]
      refine (h x List.mem_cons_self running met e underway first
        (below x List.mem_cons_self)).bind fun y e₁ ⟨underway₁, good⟩ => ?_
      refine (ih (fun y hy => h y (List.mem_cons_of_mem x hy))
        (fun y hy => below y (List.mem_cons_of_mem x hy)) _ e₁ underway₁ hsuffix).bind
        fun ys e₂ ⟨underway₂, goods⟩ => ?_
      exact .pure ⟨underway₂, .cons good goods⟩

namespace Plan

theorem id_mem_walk (p : Plan) (met : List NodeId) : p.id ∈ p.walk met := by
  rw [walk_eq]
  split
  · exact List.mem_cons_self
  · exact (suffix_foldl_walk (fun q _ => q.suffix_walk) _).subset List.mem_cons_self

/-- A walk over several plans meets each of them. -/
theorem id_mem_foldl_walk {plans : List Plan} {x : Plan} (hx : x ∈ plans) (met : List NodeId) :
    x.id ∈ plans.foldl (fun met q => q.walk met) met := by
  induction plans generalizing met with
  | nil => cases hx
  | cons q qs ih =>
      rcases List.mem_cons.mp hx with rfl | hx
      · exact (suffix_foldl_walk (fun q _ => q.suffix_walk) (x.walk met)).subset (x.id_mem_walk met)
      · exact ih hx _

/-- **Running a node** evaluates it, and what is below it, where it was not evaluated before.  The
rows of every node are good if its operation makes good rows of good ones. -/
theorem run_lands (identified : root.Identified)
    (computes : ∀ p ∈ root.nodes, ∀ rows, List.Forall₂ Good p.inputs rows →
      (p.compute ctx catalog rows).Lands (Good p) Allowed) (p : Plan) (hp : p ∈ root.nodes) :
    RunsOnce ctx catalog root Good Allowed p := by
  induction p using induct with
  | h p ih =>
      intro running met e underway hsuffix hrunning
      have ended : p ∉ running := fun h => Nat.lt_irrefl _ (hrunning p h)
      rw [p.walk_eq] at hsuffix ⊢
      rw [p.run_eq]
      by_cases again : p.id ∈ met
      · -- The node was met before, so it has several readers and its rows are kept.
        rw [if_pos again] at hsuffix ⊢
        obtain ⟨rows, hkept⟩ := underway.kept p hp again ended (one_lt_uses again hsuffix)
        rw [ExecM.Lands, ExecM.node_of_kept hkept]
        exact ⟨underway.meetAgain again, underway.good_of_kept p hp hkept⟩
      · -- The node is met for the first time: its inputs run, and then its own operation.
        rw [if_neg again] at hsuffix ⊢
        have absent : e.kept.lookup p.id = none :=
          Option.eq_none_iff_forall_ne_some.mpr fun _ hk => again (underway.met_of_kept hk)
        have each : ∀ x ∈ p.inputs, RunsOnce ctx catalog root Good Allowed x :=
          fun x hx => ih x hx (nodes_subset hp (mem_nodes_of_mem_inputs hx))
        have below : ∀ x ∈ p.inputs, ∀ q ∈ p :: running, sizeOf x < sizeOf q := by
          intro x hx q hq
          have lt := sizeOf_lt_of_mem_inputs hx
          rcases List.mem_cons.mp hq with rfl | hq
          · exact lt
          · exact lt.trans (hrunning q hq)
        have inputs_met : ∀ x ∈ p.inputs,
            x.id ∈ p.inputs.foldl (fun met q => q.walk met) (p.id :: met) :=
          fun x hx => id_mem_foldl_walk hx _
        have hmet : p.id ∈ p.inputs.foldl (fun met q => q.walk met) (p.id :: met) :=
          (suffix_foldl_walk (fun q _ => q.suffix_walk) _).subset List.mem_cons_self
        have evaluation : ExecM.Lands
            (fun rows e' => Underway root Good (p :: running)
              (p.inputs.foldl (fun met q => q.walk met) (p.id :: met)) e' ∧ Good p rows)
            (fun x e' => Allowed x ∧ e'.Once root)
            (do .ofRows (p.compute ctx catalog (← p.inputs.mapM (run ctx catalog root.uses))))
            { e with evaluated := p.id :: e.evaluated } := by
          refine (inputs_runOnce each below _ _
            (underway.begin identified hp again) hsuffix).bind fun rows e₁ h => ?_
          obtain ⟨underway₁, goods⟩ := h
          exact .ofRows (computes p hp rows goods) (fun _ n good => ⟨underway₁.closures n, good⟩)
            fun _ allowed => ⟨allowed, underway₁.once⟩
        refine .node absent evaluation fun rows e₂ h => ?_
        obtain ⟨underway₂, good⟩ := h
        exact ⟨underway₂.finish identified hp inputs_met hmet good, good⟩

/-- **Executing a plan** evaluates every node once, or fails before. -/
theorem execution_lands (identified : root.Identified)
    (computes : ∀ p ∈ root.nodes, ∀ rows, List.Forall₂ Good p.inputs rows →
      (p.compute ctx catalog rows).Lands (Good p) Allowed) (closures : Nat) :
    (∃ rows e, root.execution ctx catalog closures = (.ok rows, e) ∧
      Underway root Good [] (root.walk []) e ∧ Good root rows) ∨
    ∃ x e, root.execution ctx catalog closures = (.error x, e) ∧ Allowed x ∧ e.Once root := by
  have start : Underway root Good [] [] { closures } :=
    { once := ⟨List.nodup_nil, List.nil_subset _⟩
      evaluated_iff := Iff.rfl
      kept := fun _ _ hmet => nomatch hmet
      met_of_kept := fun hk => nomatch hk
      good_of_kept := fun _ _ _ hk => nomatch hk
      closed := fun _ _ hmet => nomatch hmet }
  have runs := run_lands identified computes root (self_mem_nodes root) [] [] _ start
    (List.suffix_refl _) fun _ hq => nomatch hq
  exact runs.ok_or_error

/-- **Every node is evaluated once.**  No execution evaluates a node twice, or another node than
those of the plan.  An execution that succeeds has evaluated each node of the plan, so there were as
many evaluations as there are nodes. -/
theorem execution_evaluates_once (identified : root.Identified) (ctx : QueryContext)
    (catalog : Catalog) (closures : Nat) :
    let evaluated := (root.execution ctx catalog closures).2.evaluated
    evaluated.Nodup ∧ evaluated ⊆ root.nodes.map id ∧
      ∀ rows n, root.execute ctx catalog closures = .ok (rows, n) →
        (∀ q ∈ root.nodes, evaluated.count q.id = 1) ∧
          evaluated.length = (root.nodes.map id).dedup.length := by
  have computes : ∀ p ∈ root.nodes, ∀ rows, List.Forall₂ (fun _ _ => True) p.inputs rows →
      (p.compute ctx catalog rows).Lands (fun _ => True) fun _ => True := by
    intro p _ rows _ n
    split <;> trivial
  rcases execution_lands identified computes closures with
    ⟨rows, e, run, underway, -⟩ | ⟨x, e, run, -, once⟩
  · rw [run]
    have all : ∀ q ∈ root.nodes, q.id ∈ e.evaluated := fun q hq =>
      underway.evaluated_iff.mpr
        (underway.met_nodes (self_mem_nodes root) (root.id_mem_walk []) q hq)
    refine ⟨underway.once.1, underway.once.2, fun _ _ _ => ⟨fun q hq => ?_, ?_⟩⟩
    · exact List.count_eq_one_of_mem underway.once.1 (all q hq)
    · refine List.Perm.length_eq ((List.perm_ext_iff_of_nodup underway.once.1
        (List.nodup_dedup _)).mpr fun i => ?_)
      rw [List.mem_dedup]
      refine ⟨fun hi => underway.once.2 hi, fun hi => ?_⟩
      obtain ⟨q, hq, rfl⟩ := List.mem_map.mp hi
      exact all q hq
  · rw [execute, run]
    refine ⟨once.1, once.2, fun _ _ success => ?_⟩
    cases success

/-- A plan whose table has three readers.  Two of them are one node, which is itself read twice by
one node. -/
def numbersShared : Plan :=
  let numbers : Plan := .scan 0 .int "numbers"
  let doubled : Plan := .concat 1 .int numbers numbers
  let distinct : Plan := .union 2 .int doubled doubled
  .concat 3 .int distinct numbers

theorem identified_numbersShared : numbersShared.Identified := by
  simp [Identified, numbersShared, nodes, id]

/-- The four nodes of the plan are evaluated once each. -/
theorem numbersShared_evaluates_once :
    let catalog : Catalog := [("numbers", ⟨.int, [.int 2, .int 1]⟩)]
    let evaluated := (numbersShared.execution default catalog 0).2.evaluated
    numbersShared.execute default catalog 0 =
        .ok (⟨.int, [.int 2, .int 1, .int 2, .int 1]⟩, 0) ∧
      evaluated.Nodup ∧ (∀ q ∈ numbersShared.nodes, evaluated.count q.id = 1) ∧
      evaluated.length = 4 := by
  intro catalog evaluated
  have success : numbersShared.execute default catalog 0 =
      .ok (⟨.int, [.int 2, .int 1, .int 2, .int 1]⟩, 0) := rfl
  obtain ⟨nodup, -, all⟩ :=
    execution_evaluates_once identified_numbersShared default catalog 0
  exact ⟨success, nodup, all _ _ success⟩

end Plan

end

end RowQuery
