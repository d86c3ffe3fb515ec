import RowQuery.Proofs.Query.Histories

/-!
# Executing a plan of a history

An execution evaluates each node of a plan once, in an order of its own.  Its rows are alike those
of the history, in one pairing for the whole execution.

* `ExecM.node_of_kept`, `ExecM.node_of_not_kept` — how a node runs.
* `Plan.suffix_walk`, `Plan.one_lt_uses` — a walk goes on from what was met before, and who is met
  again has several readers.
* `Executed` — what holds in the middle of an execution: rows of the nodes met so far are kept
  where somebody will ask for them again, and the closures of the nodes still to come are unpaired.
* **`Plan.run_executed`** — running a node of a history, by induction on the plan.
* **`History.execute`** — executing a plan of a history.
-/

namespace RowQuery

namespace ExecM

variable {α β : Type} {e e' : Execution}

/-- The second part runs where the first one ended. -/
theorem bind_of_ok {m : ExecM α} {a : α} (h : m.run.run e = (.ok a, e')) (f : α → ExecM β) :
    (m >>= f).run.run e = (f a).run.run e' := by
  simp only [ExceptT.run_bind, StateT.run_bind, h]
  rfl

theorem ofRows_of_ok {m : RowM α} {a : α} {n : Nat} (h : m e.closures = .ok (a, n)) :
    (ofRows m).run.run e = (.ok a, { e with closures := n }) := by
  simp only [ofRows, ExceptT.run_mk, StateT.run, h]

/-- What is kept after one more node. -/
theorem lookup_keep (id : NodeId) (rows : Sequence) (kept : List (NodeId × Sequence)) (i : NodeId) :
    ((id, rows) :: kept).lookup i = if i = id then some rows else kept.lookup i := by
  rw [List.lookup_cons]
  by_cases hi : i = id
  · rw [if_pos hi, beq_iff_eq.mpr hi]
  · rw [if_neg hi, beq_eq_false_iff_ne.mpr hi]

variable {uses : NodeId → Nat} {id : NodeId} {evaluate : ExecM Sequence} {rows : Sequence}

theorem node_of_kept (h : e.kept.lookup id = some rows) :
    (node uses id evaluate).run.run e = (.ok rows, e) := by
  have state : (get : ExecM Execution).run.run e = (.ok e, e) := rfl
  rw [node, bind_of_ok state, h]
  rfl

/-- Rows that are not kept are computed, and are kept if they have several readers. -/
theorem node_of_not_kept (h : e.kept.lookup id = none)
    (ok : evaluate.run.run { e with evaluated := id :: e.evaluated } = (.ok rows, e')) :
    (node uses id evaluate).run.run e =
      (.ok rows, if uses id > 1 then { e' with kept := (id, rows) :: e'.kept } else e') := by
  have state : (get : ExecM Execution).run.run e = (.ok e, e) := rfl
  have mark : (modify fun execution : Execution =>
      { execution with evaluated := id :: execution.evaluated } : ExecM PUnit).run.run e =
      (.ok ⟨⟩, { e with evaluated := id :: e.evaluated }) := rfl
  rw [node, bind_of_ok state, h]
  show (_ >>= _ : ExecM Sequence).run.run e = _
  rw [bind_of_ok mark, bind_of_ok ok]
  by_cases several : uses id > 1
  · rw [if_pos several, if_pos several]
    rfl
  · rw [if_neg several, if_neg several]
    rfl

end ExecM

namespace Plan

/-- What was met before stands last on a walk over several plans. -/
theorem suffix_foldl_walk {plans : List Plan}
    (h : ∀ q ∈ plans, ∀ met, met <:+ q.walk met) (met : List NodeId) :
    met <:+ plans.foldl (fun met q => q.walk met) met := by
  induction plans generalizing met with
  | nil => exact List.suffix_refl _
  | cons q qs ih =>
      refine (h q List.mem_cons_self met).trans ?_
      exact ih (fun q hq => h q (List.mem_cons_of_mem _ hq)) _

/-- What was met before stands last on a walk. -/
theorem suffix_walk (p : Plan) : ∀ met, met <:+ p.walk met := by
  induction p using induct with
  | h p ih =>
      intro met
      rw [walk_eq]
      split
      · exact List.suffix_cons _ _
      · exact (List.suffix_cons p.id met).trans (suffix_foldl_walk (fun q hq => ih q hq) _)

/-- A node that is met again has several readers. -/
theorem one_lt_uses {root p : Plan} {met : List NodeId} (again : p.id ∈ met)
    (h : p.id :: met <:+ root.walk []) : 1 < root.uses p.id := by
  have twice : 1 < (p.id :: met).count p.id := by
    rw [List.count_cons_self]
    have := List.count_pos_iff.mpr again
    omega
  exact Nat.lt_of_lt_of_le twice (h.sublist.count_le _)

end Plan

/-! ## In the middle of an execution -/

/-- **What holds in the middle of an execution.**  The nodes `met` so far have been evaluated,
except for those still `running`.  Of these nodes, the ones with several readers are kept, with rows
alike those of the history.  The closures of all other nodes are not paired yet. -/
structure Executed (records : List Record) (base : Nat) (uses : NodeId → Nat)
    (running met : List NodeId) (w : Pairing) (e : Execution) : Prop where
  right_eq : w.right = e.closures
  shares : w.Shares base
  kept : ∀ id ∈ met, id ∉ running → 1 < uses id → ∃ rows, e.kept.lookup id = some rows
  met_of_kept : ∀ {id rows}, e.kept.lookup id = some rows → id ∈ met
  alike_of_kept : ∀ {id rows}, e.kept.lookup id = some rows →
    ∃ r ∈ records, r.plan.id = id ∧ r.rows.Alike (w.below r.stop) rows
  free : ∀ r ∈ records, (r.plan.id ∈ met → r.plan.id ∈ running) →
    w.Free r.start (r.stop - r.start)

/-- A node that is met again is none more. -/
theorem mem_cons_iff_of_mem {met : List NodeId} {id i : NodeId} (again : id ∈ met) :
    i ∈ id :: met ↔ i ∈ met := by
  rw [List.mem_cons, or_iff_right_of_imp]
  rintro rfl
  exact again

namespace Executed

variable {ctx : QueryContext} {catalog : Catalog} {records : List Record} {base : Nat}
  {uses : NodeId → Nat} {running met : List NodeId} {w : Pairing} {e : Execution} {r : Record}

/-- Meeting a node once more changes nothing. -/
theorem meetAgain (h : Executed records base uses running met w e) {id : NodeId} (again : id ∈ met) :
    Executed records base uses running (id :: met) w e := by
  have same : ∀ {i}, i ∈ id :: met ↔ i ∈ met := mem_cons_iff_of_mem again
  refine ⟨h.right_eq, h.shares, fun i hi => h.kept i (same.mp hi), fun hk => ?_, h.alike_of_kept,
    fun r hr hfree => h.free r hr fun hmet => hfree (same.mpr hmet)⟩
  exact same.mpr (h.met_of_kept hk)

/-- A node that is met for the first time begins to run. -/
theorem begin (h : Executed records base uses running met w e) {id : NodeId} (new : id ∉ met) :
    Executed records base uses (id :: running) (id :: met) w
      { e with evaluated := id :: e.evaluated } where
  right_eq := h.right_eq
  shares := h.shares
  kept i hi hrun := by
    rw [List.mem_cons, not_or] at hrun
    exact h.kept i ((List.mem_cons.mp hi).resolve_left hrun.1) hrun.2
  met_of_kept hk := List.mem_cons_of_mem _ (h.met_of_kept hk)
  alike_of_kept := h.alike_of_kept
  free r hr hfree := by
    refine h.free r hr fun hmet => ?_
    refine (List.mem_cons.mp (hfree (List.mem_cons_of_mem _ hmet))).resolve_left ?_
    rintro rfl
    exact new hmet

/-- What the other records made is as free as it was, after a node has been evaluated. -/
theorem adjoin_free (history : History ctx catalog base records)
    (h : Executed records base uses (r.plan.id :: running) met w e) (hr : r ∈ records)
    (hmet : r.plan.id ∈ met) (ended : r.plan.id ∉ running) {k : Nat} (stop_eq : r.stop = r.start + k)
    (free : w.Free r.start k) {x : Record} (hx : x ∈ records)
    (hfree : x.plan.id ∈ met → x.plan.id ∈ running) :
    (w.adjoin r.start k free).Free x.start (x.stop - x.start) := by
  have different : x.plan.id ≠ r.plan.id := fun same => ended (same ▸ hfree (same ▸ hmet))
  have before := h.free x hx fun hm => List.mem_cons_of_mem _ (hfree hm)
  refine before.adjoin free ?_
  have le := x.start_le_stop
  rcases history.apart hx hr different with before | after <;> omega

/-- What was kept stays alike, after a node has been evaluated. -/
theorem adjoin_alike (h : Executed records base uses running met w e) {m k : Nat}
    (free : w.Free m k) {id : NodeId} {rows : Sequence} (hkept : e.kept.lookup id = some rows) :
    ∃ x ∈ records, x.plan.id = id ∧ x.rows.Alike ((w.adjoin m k free).below x.stop) rows := by
  obtain ⟨x, hx, hid, alike⟩ := h.alike_of_kept hkept
  exact ⟨x, hx, hid, Sequence.Alike.persistent (w.below_le_adjoin_below free _) alike⟩

/-- **The pairing after a node has been evaluated.** -/
theorem finish (history : History ctx catalog base records)
    (h : Executed records base uses (r.plan.id :: running) met w e) (hr : r ∈ records)
    (hmet : r.plan.id ∈ met) (ended : r.plan.id ∉ running) {k : Nat} (stop_eq : r.stop = r.start + k)
    (free : w.Free r.start k) {rows : Sequence}
    (alike : r.rows.Alike ((w.below r.start).grow k) rows) :
    Executed records base uses running met (w.adjoin r.start k free)
        (if uses r.plan.id > 1 then
          { e with closures := e.closures + k, kept := (r.plan.id, rows) :: e.kept }
        else { e with closures := e.closures + k }) ∧
      r.rows.Alike ((w.adjoin r.start k free).below r.stop) rows := by
  have adjoined : r.rows.Alike ((w.adjoin r.start k free).below r.stop) rows := by
    rw [stop_eq]
    exact Sequence.Alike.persistent (w.grow_below_le free) alike
  have shares : (w.adjoin r.start k free).Shares base := fun i hi => .inl (h.shares i hi)
  have others : ∀ x ∈ records, (x.plan.id ∈ met → x.plan.id ∈ running) →
      (w.adjoin r.start k free).Free x.start (x.stop - x.start) :=
    fun x hx hfree => h.adjoin_free history hr hmet ended stop_eq free hx hfree
  have still : ∀ i ∈ met, i ∉ running → i ≠ r.plan.id → uses i > 1 →
      ∃ rows, e.kept.lookup i = some rows := by
    intro i hi hrun other several
    refine h.kept i hi ?_ several
    rw [List.mem_cons, not_or]
    exact ⟨other, hrun⟩
  refine ⟨?_, adjoined⟩
  by_cases several : uses r.plan.id > 1
  · rw [if_pos several]
    have found := ExecM.lookup_keep r.plan.id rows e.kept
    refine ⟨by simp [h.right_eq], shares, fun i hi hrun hi' => ?_, fun {i _} hk => ?_,
      fun {i rows'} hk => ?_, others⟩
    · rw [found]
      by_cases same : i = r.plan.id
      · exact ⟨rows, if_pos same⟩
      · rw [if_neg same]
        exact still i hi hrun same hi'
    · rw [found] at hk
      by_cases same : i = r.plan.id
      · exact same ▸ hmet
      · rw [if_neg same] at hk
        exact h.met_of_kept hk
    · rw [found] at hk
      by_cases same : i = r.plan.id
      · rw [if_pos same] at hk
        cases hk
        exact ⟨r, hr, same.symm, adjoined⟩
      · rw [if_neg same] at hk
        exact h.adjoin_alike free hk
  · rw [if_neg several]
    refine ⟨by simp [h.right_eq], shares, fun i hi hrun hi' => ?_, h.met_of_kept,
      h.adjoin_alike free, others⟩
    refine still i hi hrun ?_ hi'
    rintro rfl
    exact several hi'

end Executed

/-! ## Running -/

section

variable {ctx : QueryContext} {catalog : Catalog} {records : List Record} {base : Nat}

/-- What is proved of running the node of a record, on a walk over a root. -/
def RunsAlike (ctx : QueryContext) (catalog : Catalog) (records : List Record) (base : Nat)
    (root : Plan) (r : Record) : Prop :=
  ∀ (running met : List NodeId) (w : Pairing) (e : Execution),
    Executed records base root.uses running met w e → r.plan.walk met <:+ root.walk [] →
    (∀ id ∈ running, r.plan.id < id) →
    ∃ rows e' w', (r.plan.run ctx catalog root.uses).run.run e = (.ok rows, e') ∧ w ≤ w' ∧
      Executed records base root.uses running (r.plan.walk met) w' e' ∧
      r.rows.Alike (w'.below r.stop) rows

/-- The inputs of a node run one after the other. -/
private theorem inputs_runAlike {root : Plan} {inputs : List Record}
    (h : ∀ x ∈ inputs, RunsAlike ctx catalog records base root x) {running : List NodeId}
    (below : ∀ x ∈ inputs, ∀ id ∈ running, x.plan.id < id) {n : Nat}
    (before : ∀ x ∈ inputs, x.stop ≤ n) :
    ∀ (met : List NodeId) (w : Pairing) (e : Execution),
      Executed records base root.uses running met w e →
      (inputs.map Record.plan).foldl (fun met q => q.walk met) met <:+ root.walk [] →
      ∃ rows e' w',
        ((inputs.map Record.plan).mapM (Plan.run ctx catalog root.uses)).run.run e =
          (.ok rows, e') ∧ w ≤ w' ∧
        Executed records base root.uses running
          ((inputs.map Record.plan).foldl (fun met q => q.walk met) met) w' e' ∧
        List.Forall₂ (fun x y => x.rows.Alike (w'.below n) y) inputs rows := by
  induction inputs with
  | nil => exact fun met w e hmid _ => ⟨[], e, w, rfl, le_rfl, hmid, .nil⟩
  | cons x xs ih =>
      intro met w e hmid hsuffix
      have rest := ih (fun y hy => h y (List.mem_cons_of_mem x hy))
        (fun y hy => below y (List.mem_cons_of_mem x hy))
        fun y hy => before y (List.mem_cons_of_mem x hy)
      have first : x.plan.walk met <:+ root.walk [] :=
        (Plan.suffix_foldl_walk (fun q _ => q.suffix_walk) _).trans hsuffix
      obtain ⟨y, e₁, w₁, run, le, hmid, alike⟩ :=
        h x List.mem_cons_self running met w e hmid first (below x List.mem_cons_self)
      obtain ⟨ys, e₂, w₂, run', le', hmid, alikes⟩ := rest _ w₁ e₁ hmid hsuffix
      refine ⟨y :: ys, e₂, w₂, ?_, le.trans le', hmid, .cons ?_ alikes⟩
      · rw [List.map_cons, List.mapM_cons, ExecM.bind_of_ok run, ExecM.bind_of_ok run']
        rfl
      · refine Sequence.Alike.persistent ?_ alike
        exact (Pairing.below_le_below le' _).trans (w₂.below_mono (before x List.mem_cons_self))

/-- **Running the node of a record** comes to rows alike those of the record. -/
theorem Plan.run_executed (history : History ctx catalog base records) (root : Plan) (p : Plan) :
    ∀ r ∈ records, r.plan = p → RunsAlike ctx catalog records base root r := by
  induction p using Plan.induct with
  | h p ih =>
      rintro r hr rfl running met w e hmid hsuffix hrunning
      have ended : r.plan.id ∉ running := fun h => lt_irrefl _ (hrunning _ h)
      rw [r.plan.walk_eq] at hsuffix ⊢
      rw [r.plan.run_eq]
      by_cases again : r.plan.id ∈ met
      · -- The node was met before, so it has several readers and its rows are kept.
        rw [if_pos again] at hsuffix ⊢
        obtain ⟨rows, hkept⟩ := hmid.kept _ again ended (Plan.one_lt_uses again hsuffix)
        obtain ⟨x, hx, hid, alike⟩ := hmid.alike_of_kept hkept
        obtain rfl := history.eq_of_id_eq hx hr hid
        exact ⟨rows, e, w, ExecM.node_of_kept hkept, le_rfl, hmid.meetAgain again, alike⟩
      · -- The node is met for the first time: its inputs run, and then its own operation.
        rw [if_neg again] at hsuffix ⊢
        have absent : e.kept.lookup r.plan.id = none := by
          cases hk : e.kept.lookup r.plan.id with
          | none => rfl
          | some rows => exact absurd (hmid.met_of_kept hk) again
        obtain ⟨base_le, inputs, sub, plans, after, computes⟩ := history.exists_inputs hr
        rw [plans] at hsuffix ih ⊢
        have each : ∀ x ∈ inputs, RunsAlike ctx catalog records base root x :=
          fun x hx => ih x.plan (List.mem_map_of_mem hx) x (sub hx) rfl
        have below : ∀ x ∈ inputs, ∀ id ∈ r.plan.id :: running, x.plan.id < id := by
          intro x hx id hid
          rcases List.mem_cons.mp hid with rfl | hid
          · exact (after x hx).1
          · exact (after x hx).1.trans (hrunning id hid)
        obtain ⟨xs, e₁, w₁, run, le, hmid₁, alikes⟩ :=
          inputs_runAlike each below (fun x hx => (after x hx).2) _ w _ (hmid.begin again) hsuffix
        have shares : (w₁.below r.start).Shares base :=
          fun i hi => ⟨hmid₁.shares i hi, Nat.lt_of_lt_of_le hi base_le⟩
        obtain ⟨k, rows, stop_eq, computed, alike⟩ := computes (w₁.below r.start) xs rfl shares alikes
        have free : w₁.Free r.start k := by
          have unpaired := hmid₁.free r hr fun _ => List.mem_cons_self
          rwa [stop_eq, Nat.add_sub_cancel_left] at unpaired
        have hmet : r.plan.id ∈ (inputs.map Record.plan).foldl (fun met q => q.walk met)
            (r.plan.id :: met) :=
          (suffix_foldl_walk (fun q _ => q.suffix_walk) _).subset List.mem_cons_self
        obtain ⟨hmid₂, alike₂⟩ := hmid₁.finish history hr hmet ended stop_eq free alike
        refine ⟨rows, _, _, ExecM.node_of_not_kept absent ?_, le.trans (w₁.le_adjoin free), hmid₂,
          alike₂⟩
        rw [Pairing.below_right, hmid₁.right_eq] at computed
        rw [ExecM.bind_of_ok run]
        exact ExecM.ofRows_of_ok computed

/-- **Executing a plan of a history** comes to rows alike those of its record. -/
theorem History.execute (history : History ctx catalog base records) {r : Record}
    (hr : r ∈ records) {m : Nat} (hm : base ≤ m) :
    ∃ rows n w, r.plan.execute ctx catalog m = .ok (rows, n) ∧ w.Shares base ∧
      r.rows.Alike w rows := by
  have start : Executed records base r.plan.uses [] [] (Pairing.known base m)
      { closures := m } := by
    refine ⟨rfl, fun i hi => ⟨rfl, hi, Nat.lt_of_lt_of_le hi hm⟩, ?_, ?_, ?_, fun x hx _ => ?_⟩
    · exact fun id hid => nomatch hid
    · exact fun hk => nomatch hk
    · exact fun hk => nomatch hk
    · exact Pairing.free_of_left_le (history.exists_inputs hx).1 _
  obtain ⟨rows, e', w, run, -, ended, alike⟩ := Plan.run_executed history r.plan r.plan r hr rfl [] []
    _ _ start (List.suffix_refl _) fun id hid => nomatch hid
  refine ⟨rows, e'.closures, w, ?_, ended.shares, Sequence.Alike.persistent (w.below_le _) alike⟩
  have outcome : r.plan.execution ctx catalog m = (.ok rows, e') := run
  rw [Plan.execute, outcome]
  rfl

end

end RowQuery
