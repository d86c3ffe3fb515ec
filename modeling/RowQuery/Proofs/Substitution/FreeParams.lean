import RowQuery.Proofs.FirstMembers
import RowQuery.Proofs.Split.Equivalence
import RowQuery.Proofs.Substitution.Composition

/-!
# Free parameters after a substitution

A substitution puts the free parameters of what it puts in where a bound parameter stood, and leaves
all others where they are.  Free parameters are listed in the order of their first reference, and so
they are afterwards.

* `Expr.freeRefs_subst` — the free references, in order and with repetitions.
* `Expr.freeIds` — the ids of the free parameters.
* `Bindings.idsOf` — what becomes of the id of a free parameter.
* `Expr.freeIds_subst` — the ids of the free parameters after a substitution.
* `Expr.freeParams_of_forall_eq` — an expression all of whose free references are to one parameter.
* **`Expr.freeParams_substituted`** — substitutions, and the bodies of split functions.
-/

namespace RowQuery

namespace Expr

/-! ## Free references -/

/-- **The free references after a substitution** are, in order, those of what is substituted for each
free reference, if no nested function captures them. -/
theorem freeRefs_subst {b : Bindings} {e : Expr}
    (uncaptured : ∀ id x, b.lookup id = some x → ∀ q ∈ x.freeRefs, q.id ∉ e.declared) :
    (e.subst b).freeRefs = e.freeRefs.flatMap fun p => ((param p).subst b).freeRefs := by
  induction e using inductCompound generalizing b with
  | param p => exact (List.flatMap_singleton ..).symm
  | lit l => rfl
  | compound e h ih =>
      rw [h.subst_eq, (h.mapChildren _).freeRefs_eq, children_mapChildren, List.flatMap_map,
        h.freeRefs_eq, List.flatMap_assoc]
      exact List.flatMap_congr fun child hchild => ih child hchild fun id x found q hq captured =>
        uncaptured id x found q hq (h.declared_subset hchild captured)
  | lambda params body ih =>
      have below : ∀ id x, (b.without params).lookup id = some x →
          ∀ q ∈ x.freeRefs, q.id ∉ body.declared := by
        intro id x found q hq captured
        by_cases declared : id ∈ params.map (·.id)
        · rw [b.lookup_without_of_mem declared] at found
          cases found
        · rw [b.lookup_without_of_not_mem declared] at found
          exact uncaptured id x found q hq (List.mem_append_right _ captured)
      rw [subst, freeRefs, freeRefs, ih below, List.filter_flatMap, flatMap_filter]
      refine List.flatMap_congr fun p _ => ?_
      by_cases declared : p.id ∈ params.map (·.id)
      · -- the function binds `p`, and nothing is substituted for it
        rw [subst_param_without_of_mem b declared, freeRefs, if_neg (by simpa using declared),
          List.filter_cons_of_neg (by simpa using declared), List.filter_nil]
      · rw [subst_param_without_of_not_mem b declared, if_pos (by simpa using declared),
          List.filter_eq_self]
        intro q hq
        rw [decide_eq_true_iff]
        rw [subst] at hq
        cases found : b.lookup p.id with
        | none =>
            rw [found] at hq
            obtain rfl := List.mem_singleton.mp hq
            exact declared
        | some x =>
            rw [found] at hq
            exact fun captured => uncaptured p.id x found q hq (List.mem_append_left _ captured)

/-! ## Free parameters -/

/-- **The ids of the free parameters**, in the order of their first reference. -/
def freeIds (e : Expr) : List ParamId := e.freeParams.map (·.id)

/-- They are the ids of the free references, each of them once. -/
theorem freeIds_eq (e : Expr) : e.freeIds = distinctBy id (e.freeRefs.map (·.id)) :=
  map_distinctBy e.freeRefs

end Expr

/-- **What becomes of the id of a free parameter**: the ids of the free parameters of what is bound
to it, or itself. -/
def Bindings.idsOf (b : Bindings) (id : ParamId) : List ParamId :=
  match b.lookup id with
  | some x => x.freeIds
  | none => [id]

/-- These are the ids of the free references of what is substituted, each of them once. -/
theorem Bindings.idsOf_eq (b : Bindings) (p : Param) :
    b.idsOf p.id = distinctBy id (((Expr.param p).subst b).freeRefs.map (·.id)) := by
  rw [idsOf, Expr.subst]
  cases b.lookup p.id with
  | none => rfl
  | some x => exact x.freeIds_eq

namespace Expr

/-- **The free parameters after a substitution**, if no nested function captures what it puts in. -/
theorem freeIds_subst {b : Bindings} {e : Expr}
    (uncaptured : ∀ id x, b.lookup id = some x → ∀ q ∈ x.freeRefs, q.id ∉ e.declared) :
    (e.subst b).freeIds = (e.freeIds.flatMap b.idsOf).eraseDups := by
  have each : (e.freeRefs.map (·.id)).flatMap b.idsOf = e.freeRefs.flatMap fun p =>
      distinctBy id (((param p).subst b).freeRefs.map (·.id)) := by
    rw [List.flatMap_map]
    exact List.flatMap_congr fun p _ => b.idsOf_eq p
  calc (e.subst b).freeIds
      = distinctBy id (e.freeRefs.flatMap fun p => ((param p).subst b).freeRefs.map (·.id)) := by
        rw [freeIds_eq, freeRefs_subst uncaptured, List.map_flatMap]
    _ = distinctBy id ((e.freeRefs.map (·.id)).flatMap b.idsOf) := by
        rw [each, distinctBy_flatMap_distinctBy]
    _ = (e.freeIds.flatMap b.idsOf).eraseDups := by
        rw [freeIds_eq, ← distinctBy_flatMap, distinctBy_id]

/-- **An expression that refers freely to one parameter alone** has it as its one free parameter, or
none at all. -/
theorem freeParams_of_forall_eq {e : Expr} {q : Param} (alone : ∀ p ∈ e.freeRefs, p = q) :
    e.freeParams = if e.freeRefs = [] then [] else [q] := by
  rw [freeParams]
  cases refs : e.freeRefs with
  | nil => rfl
  | cons p ps =>
      rw [refs] at alone
      obtain rfl := alone p List.mem_cons_self
      rw [if_neg (List.cons_ne_nil _ _), distinctBy, List.filter_eq_nil_iff.mpr]
      intro r hr
      rw [alone r (List.mem_cons_of_mem _ (mem_of_mem_distinctBy hr))]
      simp

end Expr

/-! ## Split functions -/

namespace CarrierMap

variable {carrier : Param} {f : Lambda} {plan : MemberPlan}

/-- **The body of a split function refers freely to the carrier alone**, captured or not. -/
theorem eq_carrier_of_mem_freeRefs (carrier : Param) (check : f.checkParams = .ok ())
    (hlen : plan.slots.length = f.params.length) :
    ∀ p ∈ ((ofPlan carrier f.params plan).splitLambda f).body.freeRefs, p = carrier := by
  intro p hp
  obtain ⟨q, hq, from_q⟩ := Expr.exists_of_mem_freeRefs_subst hp
  obtain ⟨name, ty, -, access⟩ := exists_subst_param check hlen hq
  rw [access carrier] at from_q
  exact List.mem_singleton.mp from_q

/-- If no nested function captures the carrier, it refers to nothing only if the function refers to
none of its parameters. -/
theorem freeRefs_splitLambda_eq_nil_iff (check : f.checkParams = .ok ())
    (hlen : plan.slots.length = f.params.length) (fresh : carrier.id ∉ f.body.declared) :
    ((ofPlan carrier f.params plan).splitLambda f).body.freeRefs = [] ↔ f.body.freeRefs = [] := by
  have uncaptured : ∀ id x, (ofPlan carrier f.params plan).bindings.lookup id = some x →
      ∀ q ∈ x.freeRefs, q.id ∉ f.body.declared := by
    intro id x found q hq
    obtain ⟨name, ty, rfl⟩ := eq_member_of_lookup found
    obtain rfl := List.mem_singleton.mp hq
    exact fresh
  rw [splitLambda, Expr.freeRefs_subst uncaptured, List.flatMap_eq_nil_iff,
    List.eq_nil_iff_forall_not_mem]
  refine forall₂_congr fun p hp => iff_of_false (fun none => ?_) id
  obtain ⟨name, ty, -, access⟩ := exists_subst_param check hlen hp
  rw [access carrier] at none
  cases none

end CarrierMap

namespace Expr

/-- No free parameters are no free references. -/
theorem freeParams_eq_nil_iff {e : Expr} : e.freeParams = [] ↔ e.freeRefs = [] := by
  refine ⟨fun none => List.eq_nil_iff_forall_not_mem.mpr fun p hp => ?_, fun none => ?_⟩
  · obtain ⟨q, hq, -⟩ := exists_mem_freeParams hp
    rw [none] at hq
    cases hq
  · rw [freeParams, none, distinctBy]

/-- **Free parameters after a substitution.**  If no nested function captures what is bound, the ids
of the free parameters are those of before, in order, each bound one replaced by the ids of the free
parameters of what is bound to it, and all later repetitions left out.  The body of a split function
refers freely to the carrier alone, or to nothing; if no nested function captures the carrier, it
refers to nothing only if the function refers to none of its parameters. -/
theorem freeParams_substituted :
    (∀ (e : Expr) (b : Bindings),
      (∀ id x, b.lookup id = some x → ∀ q ∈ x.freeRefs, q.id ∉ e.declared) →
      (e.subst b).freeIds = (e.freeIds.flatMap b.idsOf).eraseDups) ∧
    ∀ (s : Splitter) (f g : Lambda) (carrier : Ty) (state after : SplitState), s.Reached state →
      (s.split f carrier).run.run state = (.ok g, after) →
      ∃ row, g.params = [row] ∧ (g.body.freeParams = [] ∨ g.body.freeParams = [row]) ∧
        (row.id ∉ f.body.declared →
          g.body.freeParams = if f.body.freeParams = [] then [] else [row]) := by
  refine ⟨fun e b uncaptured => freeIds_subst uncaptured, ?_⟩
  intro s f g carrier state after reached split
  obtain ⟨check, plan, -, hlen, rfl⟩ := Splitter.split_eq_ok reached.remembers split
  generalize s.nextCarrier state carrier = row
  have body := freeParams_of_forall_eq (CarrierMap.eq_carrier_of_mem_freeRefs row check hlen)
  refine ⟨row, rfl, ?_, fun fresh => ?_⟩
  · rw [body]
    exact ite_eq_or_eq _ _ _
  · simp only [body, CarrierMap.freeRefs_splitLambda_eq_nil_iff check hlen fresh,
      freeParams_eq_nil_iff]

/-- In `x, y, |x, z| x + y + z` the tuple `(y, w)` is substituted for `x`, so `y` comes first and `w`
after it; and the split function that multiplies the members of a point refers to the point. -/
theorem freeParams_substituted_sumBelow :
    let y : Param := ⟨⟨101⟩, "y", .int⟩
    let w : Param := ⟨⟨7⟩, "w", .int⟩
    let e := sumBelow (.param ⟨⟨100⟩, "x", .int⟩) (.param y)
    let b : Bindings := [(⟨100⟩, .tuple [.param y, .param w]), (⟨102⟩, .param w)]
    (e.subst b).freeIds = (e.freeIds.flatMap b.idsOf).eraseDups ∧ (e.subst b).freeIds = [y.id, w.id] ∧
      ∃ g after, (Splitter.points.split Splitter.scaled (.con "Point")).run.run {} =
          (.ok g, after) ∧
        g.body.freeParams = [⟨⟨0⟩, "row", .con "Point"⟩] := by
  intro y w e b
  refine ⟨freeParams_substituted.1 e b ?_, by decide, _, _, rfl, ?_⟩
  · have values : ∀ x ∈ b, ∀ q ∈ x.2.freeRefs, q.id ∉ e.declared := by decide
    exact fun id x found => values (id, x) (mem_of_lookup found)
  · obtain ⟨row, params, -, body⟩ := freeParams_substituted.2 Splitter.points Splitter.scaled _
      (.con "Point") {} _ (.start {}) rfl
    cases params
    exact body (by decide)

end Expr

end RowQuery
