import RowQuery.Proofs.Query.Histories

/-!
# The nodes of a plan

A plan is written as a tree, but its nodes are known by their ids: a node that several others read
stands in the tree once for each path to it, each time with the same id.

* `Plan.nodes` — the nodes of a plan, with `Plan.nodes_subset`: what is below a node is below
  everything above it.
* `Plan.Identified` — the id tells which node it is.
* `Plan.sizeOf_lt_of_mem_inputs` — no node is below itself.
-/

namespace RowQuery.Plan

/-- **The nodes of a plan**: its root and all nodes below, once for each path from the root. -/
def nodes : Plan → List Plan
  | .scan id ty table => [.scan id ty table]
  | .correlate id ty outer inner outerKey innerKey =>
      .correlate id ty outer inner outerKey innerKey :: (outer.nodes ++ inner.nodes)
  | .flattenWithDefault id ty input => .flattenWithDefault id ty input :: input.nodes
  | .project id ty input selector => .project id ty input selector :: input.nodes
  | .filter id ty input predicate => .filter id ty input predicate :: input.nodes
  | .union id ty left right => .union id ty left right :: (left.nodes ++ right.nodes)
  | .concat id ty left right => .concat id ty left right :: (left.nodes ++ right.nodes)

theorem nodes_eq (p : Plan) : p.nodes = p :: p.inputs.flatMap nodes := by
  cases p <;> simp [nodes, inputs]

variable {p q x : Plan}

theorem mem_nodes_iff : q ∈ p.nodes ↔ q = p ∨ ∃ x ∈ p.inputs, q ∈ x.nodes := by
  rw [nodes_eq, List.mem_cons, List.mem_flatMap]

theorem self_mem_nodes (p : Plan) : p ∈ p.nodes := mem_nodes_iff.mpr (.inl rfl)

theorem mem_nodes_of_mem_inputs (hx : x ∈ p.inputs) : x ∈ p.nodes :=
  mem_nodes_iff.mpr (.inr ⟨x, hx, self_mem_nodes x⟩)

/-- **What is below a node** is below everything above it. -/
theorem nodes_subset (h : q ∈ p.nodes) : q.nodes ⊆ p.nodes := by
  induction p using induct with
  | h p ih =>
      rcases mem_nodes_iff.mp h with rfl | ⟨x, hx, hq⟩
      · exact List.Subset.refl _
      · exact fun r hr => mem_nodes_iff.mpr (.inr ⟨x, hx, ih x hx hq hr⟩)

/-- An input is smaller than the plan, so no node is below itself. -/
theorem sizeOf_lt_of_mem_inputs (h : x ∈ p.inputs) : sizeOf x < sizeOf p := by
  cases p with
  | scan => cases h
  | flattenWithDefault | project | filter =>
      obtain rfl := List.mem_singleton.mp h
      simp only [flattenWithDefault.sizeOf_spec, project.sizeOf_spec, filter.sizeOf_spec]
      omega
  | correlate | union | concat =>
      simp only [correlate.sizeOf_spec, union.sizeOf_spec, concat.sizeOf_spec]
      rcases List.mem_pair.mp h with rfl | rfl <;> omega

/-- **The id tells which node it is.**  Two places in the tree where the same id stands are the same
node. -/
def Identified (p : Plan) : Prop := ∀ q ∈ p.nodes, ∀ r ∈ p.nodes, q.id = r.id → q = r

end RowQuery.Plan
