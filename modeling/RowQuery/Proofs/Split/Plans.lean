import RowQuery.Proofs.Matching.FirstFree
import RowQuery.Split.Splitter

/-!
# What splitting leaves behind

Plans are remembered under what determines them.  Memory therefore never changes an answer: it
only saves the work of finding it again.

* `Splitter.Remembers` — every remembered plan is the one that the schema gives.
* `Splitter.Reached` — the states that splitting can leave behind.
* **`Splitter.memberPlan_run`** — a request is answered as the schema does, remembered or not.
* **`Splitter.carrierMap_run`**, `Splitter.split_run` — what becomes of a function, and of the
  supply of ids.
* `Splitter.length_slots`, `Splitter.planOf_eq_ok` — one member for each expected type, and what a
  plan says about the function.
* `Lambda.checkParams_eq_ok_iff` — which functions can be split.
-/

namespace RowQuery

/-! ## Plans -/

namespace Splitter

variable {s : Splitter} {state : SplitState}

theorem length_slots {carrier : Ty} {expected : List Ty} {plan : MemberPlan}
    (h : s.computePlan carrier expected = .ok plan) : plan.slots.length = expected.length := by
  obtain ⟨members, -, h⟩ := bind_eq_ok_iff.mp h
  exact (MemberPlan.serves_of_ofMembers h).fitting.length_eq.symm

/-! ## Memory -/

/-- **Every remembered plan is the one that the schema gives.** -/
def Remembers (s : Splitter) (state : SplitState) : Prop :=
  ∀ key plan, state.cache.find? key = some plan →
    s.computePlan key.carrier key.expected = .ok plan

/-- Nothing remembered is nothing wrong. -/
theorem remembers_empty (s : Splitter) (ids : IdSupply) : s.Remembers { ids } :=
  fun _ _ h => nomatch h

/-- A right memory gives the computed answer and stays right. -/
private theorem resolve_right (cache : PlanCache) (key : PlanKey)
    (compute : Unit → Except SplitError MemberPlan)
    (right : ∀ plan, cache.find? key = some plan → compute () = .ok plan) :
    (cache.resolve key compute).1.outcome = compute () ∧
      ∀ k plan, (cache.resolve key compute).2.find? k = some plan →
        cache.find? k = some plan ∨ k = key ∧ compute () = .ok plan := by
  obtain ⟨plan, found, resolved⟩ | ⟨plan, -, computed, resolved⟩ | ⟨e, -, computed, resolved⟩ :=
    cache.resolve_cases key compute
  all_goals rw [resolved]
  · exact ⟨(right plan found).symm, fun _ _ h => .inl h⟩
  · refine ⟨computed.symm, fun k plan' h => ?_⟩
    rw [PlanCache.find?_kept] at h
    split at h
    case isTrue hk => exact .inr ⟨hk, computed.trans (congrArg _ (Option.some.inj h))⟩
    case isFalse => exact .inl h
  · exact ⟨computed.symm, fun _ _ h => .inl h⟩

/-- **A request is answered as the schema does**, whether or not the plan is remembered.  Memory
stays right, and no id is handed out. -/
theorem memberPlan_run (h : s.Remembers state) (carrier : Ty) (expected : List Ty) :
    ∃ cache, s.Remembers { state with cache } ∧
      (s.memberPlan carrier expected).run.run state =
        (s.computePlan carrier expected, { state with cache }) := by
  by_cases memory : s.options.cacheMemberPlans = true
  · obtain ⟨answer, remembered⟩ := resolve_right state.cache ⟨carrier, expected⟩
      (fun _ => s.computePlan carrier expected) (h ⟨carrier, expected⟩)
    refine ⟨(state.cache.resolve ⟨carrier, expected⟩ fun _ => s.computePlan carrier expected).2,
      ?_, ?_⟩
    · intro k plan hk
      rcases remembered k plan hk with hk | ⟨rfl, computed⟩
      · exact h k plan hk
      · exact computed
    · simp only [memberPlan, if_pos memory]
      exact Prod.ext answer rfl
  · refine ⟨state.cache, h, ?_⟩
    simp only [memberPlan, if_neg memory]
    rfl

/-! ## Splitting -/

/-- The plan for the parameters of a function, if the function can be split. -/
def planOf (s : Splitter) (f : Lambda) (carrier : Ty) : Except SplitError MemberPlan := do
  f.checkParams
  s.computePlan carrier f.paramTys

/-- A plan stands for functions that pass the check, with one member for each parameter. -/
theorem planOf_eq_ok {f : Lambda} {carrier : Ty} {plan : MemberPlan}
    (h : s.planOf f carrier = .ok plan) :
    f.checkParams = .ok () ∧ s.computePlan carrier f.paramTys = .ok plan ∧
      plan.slots.length = f.params.length := by
  obtain ⟨_, check, computed⟩ := bind_eq_ok_iff.mp h
  refine ⟨check, computed, ?_⟩
  rw [length_slots computed, Lambda.paramTys, List.length_map]

/-- The parameter that a split function takes next. -/
def nextCarrier (s : Splitter) (state : SplitState) (carrier : Ty) : Param :=
  ⟨⟨state.ids.next⟩, s.options.carrierParamName, carrier⟩

/-- **What becomes of the parameters of a function.**  One id is handed out if there is a plan. -/
theorem carrierMap_run (h : s.Remembers state) (f : Lambda) (carrier : Ty) :
    ∃ after, s.Remembers after ∧
      (s.carrierMap f carrier).run.run state =
        ((s.planOf f carrier).map (.ofPlan (s.nextCarrier state carrier) f.params), after) ∧
      after.ids = match s.planOf f carrier with
        | .ok _ => ⟨state.ids.next + 1⟩
        | .error _ => state.ids := by
  cases check : f.checkParams with
  | error e =>
      refine ⟨state, h, ?_, ?_⟩
      · simp only [carrierMap, planOf, check]
        rfl
      · simp only [planOf, check]
        rfl
  | ok u =>
      obtain ⟨cache, remembers, run⟩ := memberPlan_run h carrier f.paramTys
      cases plan : s.computePlan carrier f.paramTys with
      | error e =>
          rw [plan] at run
          refine ⟨{ state with cache }, remembers, ?_, ?_⟩
          · simp only [carrierMap, planOf, check, ExceptT.run_bind, StateT.run_bind, plan]
            simp [SplitM.ofExcept, run]
            rfl
          · simp only [planOf, check, plan]
            rfl
      | ok plan =>
          rw [plan] at run
          refine ⟨{ cache, ids := ⟨state.ids.next + 1⟩ }, remembers, ?_, ?_⟩
          · simp only [carrierMap, planOf, check, ExceptT.run_bind, StateT.run_bind, plan]
            simp [SplitM.ofExcept, run]
            rfl
          · simp only [planOf, check, plan]
            rfl

/-- **What becomes of a function.** -/
theorem split_run (h : s.Remembers state) (f : Lambda) (carrier : Ty) :
    ∃ after, s.Remembers after ∧
      (s.split f carrier).run.run state =
        ((s.planOf f carrier).map fun plan =>
          (CarrierMap.ofPlan (s.nextCarrier state carrier) f.params plan).splitLambda f, after) ∧
      after.ids = match s.planOf f carrier with
        | .ok _ => ⟨state.ids.next + 1⟩
        | .error _ => state.ids := by
  obtain ⟨after, remembers, run, ids⟩ := carrierMap_run h f carrier
  refine ⟨after, remembers, ?_, ids⟩
  simp only [split, ExceptT.run_bind, StateT.run_bind, run]
  cases s.planOf f carrier <;> rfl

/-- **The states that splitting can leave behind**, with its failures.  Making a carrier map leaves
behind what splitting does. -/
inductive Reached (s : Splitter) : SplitState → Prop
  | start (ids : IdSupply) : Reached s { ids }
  | memberPlan {state : SplitState} (carrier : Ty) (expected : List Ty) (h : Reached s state) :
      Reached s ((s.memberPlan carrier expected).run.run state).2
  | newParam {state : SplitState} (name : String) (ty : Ty) (h : Reached s state) :
      Reached s ((SplitM.newParam name ty).run.run state).2
  | split {state : SplitState} (f : Lambda) (carrier : Ty) (h : Reached s state) :
      Reached s ((s.split f carrier).run.run state).2

/-- **Memory is right** in every state that splitting can leave behind. -/
theorem Reached.remembers (h : s.Reached state) : s.Remembers state := by
  induction h with
  | start ids => exact s.remembers_empty ids
  | memberPlan carrier expected _ ih =>
      obtain ⟨cache, remembers, run⟩ := memberPlan_run ih carrier expected
      rw [run]
      exact remembers
  | newParam name ty _ ih => exact ih
  | split f carrier _ ih =>
      obtain ⟨after, remembers, run, -⟩ := split_run ih f carrier
      rw [run]
      exact remembers

end Splitter

/-! ## Functions that can be split -/

/-- The first free parameter that is not declared is the first free reference that is not. -/
theorem Expr.find?_freeParams (e : Expr) (ids : List ParamId) :
    (e.freeParams.find? fun p => p.id ∉ ids) = e.freeRefs.find? fun p => p.id ∉ ids :=
  find?_distinctBy (fun p q same => by rw [same]) e.freeRefs

/-- **A function can be split** if it has parameters, of pairwise different ids, and refers to no
others. -/
theorem Lambda.checkParams_eq_ok_iff {f : Lambda} :
    f.checkParams = .ok () ↔ f.params ≠ [] ∧ (f.params.map (·.id)).Nodup ∧
      ∀ p ∈ f.body.freeRefs, p.id ∈ f.params.map (·.id) := by
  have repeats : firstRepeat? Param.id f.params = none ↔ (f.params.map (·.id)).Nodup :=
    firstRepeat?_eq_none_iff
  have declared : (f.body.freeParams.find? fun p => p.id ∉ f.params.map (·.id)) = none ↔
      ∀ p ∈ f.body.freeRefs, p.id ∈ f.params.map (·.id) := by
    rw [Expr.find?_freeParams, List.find?_eq_none]
    simp
  rw [← declared, ← repeats]
  unfold checkParams
  cases f.params with
  | nil => simp
  | cons p ps =>
      cases firstRepeat? Param.id (p :: ps) with
      | some q => simp
      | none =>
          cases List.find? _ f.body.freeParams with
          | some q => simp
          | none => simp [pure, Except.pure]

end RowQuery
