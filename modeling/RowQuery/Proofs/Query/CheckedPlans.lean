import RowQuery.Proofs.Query.Lawful
import RowQuery.Proofs.Query.PlanNodes

/-!
# Plans are checked as they are composed

An operation on plans checks its types, takes the next number as the id of its node, and puts the
node on top of plans that are there.  So whatever is composed, every node has passed its check, and
the id tells which node it is.

* `Plan.Checked` — whether the operation of a node fits the elements of its inputs.
* `Plan.Operation` — the operations that make a plan of given ones, with `Plan.Operation.made`.
* `Plan.Composed` — the plans that a session has composed, from its beginning.
* `Plan.Coherent`, **`Plan.Composed.coherent`** — what holds of them after every operation.
* `Plan.Composed.identified` — the id tells which node of a composed plan it is.
-/

namespace RowQuery.Plan

/-- **Whether the operation of the root node fits its inputs**, and makes elements of the type that
the node has. -/
def Checked : Plan → Prop
  | .scan .. => True
  | .correlate _ ty outer inner outerKey innerKey =>
      Query.correlatedTy outer.elementTy inner.elementTy outerKey innerKey = .ok ty
  | .flattenWithDefault _ ty input => Query.flattenedTy input.elementTy = .ok ty
  | .project _ ty input selector =>
      Query.checkUnary "project" selector input.elementTy = .ok () ∧ ty = selector.retTy
  | .filter _ ty input predicate =>
      Query.checkPredicate predicate input.elementTy = .ok () ∧ ty = input.elementTy
  | .union _ ty left right => left.elementTy = right.elementTy ∧ ty = left.elementTy
  | .concat _ ty left right => left.elementTy = right.elementTy ∧ ty = left.elementTy

/-! ## Composition -/

/-- **The operations that make a plan**: reading a table, and those of a source on given plans. -/
inductive Operation (plans : List Plan) : QueryM Plan → Prop where
  | ofTable (table : String) (ty : Ty) : Operation plans (ofTable table ty)
  | correlate {outer inner : Plan} (houter : outer ∈ plans) (hinner : inner ∈ plans)
      (outerKey innerKey : Lambda) :
      Operation plans (Source.correlate outer inner outerKey innerKey)
  | flattenWithDefault {source : Plan} (h : source ∈ plans) :
      Operation plans (Source.flattenWithDefault source)
  | project {source : Plan} (h : source ∈ plans) (selector : Lambda) :
      Operation plans (Source.project source selector)
  | filter {source : Plan} (h : source ∈ plans) (predicate : Lambda) :
      Operation plans (Source.filter source predicate)
  | union {left right : Plan} (hleft : left ∈ plans) (hright : right ∈ plans) :
      Operation plans (Source.union left right)
  | concat {left right : Plan} (hleft : left ∈ plans) (hright : right ∈ plans) :
      Operation plans (Source.concat left right)

/-- **The plans that a session has composed**, the latest first.  Between two operations anything
may happen to the session, but numbers of nodes are not taken back. -/
inductive Composed (ctx : QueryContext) : Session → List Plan → Prop where
  | start (s : Session) : Composed ctx s []
  | operation {s s' : Session} {plans : List Plan} {p : Plan} {m : QueryM Plan}
      (before : Composed ctx s plans) (op : Operation plans m)
      (run : m.exec ctx s = (.ok p, s')) : Composed ctx s' (p :: plans)
  | meanwhile {s s' : Session} {plans : List Plan} (before : Composed ctx s plans)
      (later : s.nodes ≤ s'.nodes) : Composed ctx s' plans

variable {ctx : QueryContext} {s s' : Session} {plans : List Plan} {p : Plan} {m : QueryM Plan}

/-- **What an operation makes**: a node with the next id on top of given plans, which has passed its
check. -/
theorem Operation.made (op : Operation plans m) (run : m.exec ctx s = (.ok p, s')) :
    p.id = s.nodes ∧ s'.nodes = s.nodes + 1 ∧ p.inputs ⊆ plans ∧ p.Checked := by
  have pair : ∀ {a b : Plan}, a ∈ plans → b ∈ plans → [a, b] ⊆ plans := fun ha hb =>
    List.cons_subset.mpr ⟨ha, List.cons_subset.mpr ⟨hb, List.nil_subset _⟩⟩
  have single : ∀ {a : Plan}, a ∈ plans → [a] ⊆ plans := fun ha =>
    List.cons_subset.mpr ⟨ha, List.nil_subset _⟩
  cases op with
  | ofTable table ty =>
      cases run
      exact ⟨rfl, rfl, List.nil_subset _, trivial⟩
  | correlate houter hinner outerKey innerKey =>
      obtain ⟨ty, check, rfl, rfl⟩ := exec_newNode_after run
      exact ⟨rfl, rfl, pair houter hinner, check⟩
  | flattenWithDefault h =>
      obtain ⟨ty, check, rfl, rfl⟩ := exec_newNode_after run
      exact ⟨rfl, rfl, single h, check⟩
  | project h selector =>
      obtain ⟨_, check, rfl, rfl⟩ := exec_newNode_after run
      exact ⟨rfl, rfl, single h, check, rfl⟩
  | filter h predicate =>
      obtain ⟨_, check, rfl, rfl⟩ := exec_newNode_after run
      exact ⟨rfl, rfl, single h, check, rfl⟩
  | union hleft hright =>
      obtain ⟨_, check, rfl, rfl⟩ := exec_newNode_after run
      exact ⟨rfl, rfl, pair hleft hright, Query.checkSameElements_eq_ok_iff.mp check, rfl⟩
  | concat hleft hright =>
      obtain ⟨_, check, rfl, rfl⟩ := exec_newNode_after run
      exact ⟨rfl, rfl, pair hleft hright, Query.checkSameElements_eq_ok_iff.mp check, rfl⟩

/-! ## What holds of composed plans -/

/-- **What holds of the plans composed before the node `next`.** -/
structure Coherent (next : NodeId) (plans : List Plan) : Prop where
  /-- What is below a plan was composed, too. -/
  closed : ∀ p ∈ plans, p.nodes ⊆ plans
  checked : ∀ p ∈ plans, p.Checked
  older : ∀ p ∈ plans, p.id < next
  eq_of_id_eq : ∀ p ∈ plans, ∀ q ∈ plans, p.id = q.id → p = q

namespace Coherent

variable {next : NodeId}

theorem mono (h : Coherent next plans) {later : NodeId} (le : next ≤ later) :
    Coherent later plans :=
  { h with older := fun p hp => Nat.lt_of_lt_of_le (h.older p hp) le }

/-- One more node. -/
theorem cons (h : Coherent next plans) (id_eq : p.id = next) (inputs : p.inputs ⊆ plans)
    (checked : p.Checked) : Coherent (next + 1) (p :: plans) := by
  refine ⟨?_, ?_, ?_, ?_⟩
  · intro q hq
    rcases List.mem_cons.mp hq with rfl | hq
    · intro r hr
      rcases mem_nodes_iff.mp hr with rfl | ⟨x, hx, hr⟩
      · exact List.mem_cons_self
      · exact List.mem_cons_of_mem _ (h.closed x (inputs hx) hr)
    · exact List.subset_cons_of_subset p (h.closed q hq)
  · exact List.forall_mem_cons.mpr ⟨checked, h.checked⟩
  · exact List.forall_mem_cons.mpr ⟨id_eq ▸ Nat.lt_succ_self _,
      fun q hq => (h.older q hq).trans (Nat.lt_succ_self _)⟩
  · have new : ∀ q ∈ plans, q.id ≠ p.id := fun q hq => id_eq ▸ (h.older q hq).ne
    intro q hq r hr same
    rcases List.mem_cons.mp hq with rfl | old <;> rcases List.mem_cons.mp hr with rfl | old'
    · rfl
    · exact absurd same.symm (new r old')
    · exact absurd same (new q old)
    · exact h.eq_of_id_eq q old r old' same

end Coherent

namespace Composed

/-- **Composed plans are coherent**: every operation keeps them so. -/
theorem coherent (h : Composed ctx s plans) : Coherent s.nodes plans := by
  induction h with
  | start s =>
      exact { closed := fun _ hp => (List.not_mem_nil hp).elim
              checked := fun _ hp => (List.not_mem_nil hp).elim
              older := fun _ hp => (List.not_mem_nil hp).elim
              eq_of_id_eq := fun _ hp => (List.not_mem_nil hp).elim }
  | operation before op run ih =>
      obtain ⟨id_eq, nodes_eq, inputs, checked⟩ := op.made run
      rw [nodes_eq]
      exact ih.cons id_eq inputs checked
  | meanwhile before later ih => exact ih.mono later

/-- **The id tells which node of a composed plan it is.** -/
theorem identified (h : Composed ctx s plans) (hp : p ∈ plans) : p.Identified := by
  have below := h.coherent.closed p hp
  exact fun q hq r hr => h.coherent.eq_of_id_eq q (below hq) r (below hr)

end Composed

end RowQuery.Plan
