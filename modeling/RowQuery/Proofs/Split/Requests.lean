import RowQuery.Proofs.Split.Plans

/-!
# Requests to a splitter

A splitter is asked for plans, for carrier maps, for split functions and for new parameters, in any
order.  A request leaves remembered plans behind, and it may hand out an id, whether or not it
succeeds.  Nobody can tell from an answer what was asked before.

* `Splitter.Request` — what a splitter can be asked for.
* `Splitter.after` — the state that a history of requests leaves behind; it is one that splitting
  can leave behind (`Splitter.reached_after`), so its memory is right.
* `Splitter.remembering` — the splitter with memory switched on or off.
* **`Splitter.memory_unobservable`** — every answer is the one that the schema gives.
-/

namespace RowQuery.Splitter

/-! ## Histories -/

/-- **What a splitter can be asked for.** -/
inductive Request where
  | memberPlan (carrier : Ty) (expected : List Ty)
  | carrierMap (f : Lambda) (carrier : Ty)
  | split (f : Lambda) (carrier : Ty)
  /-- A parameter that has nothing to do with a carrier. -/
  | newParam (name : String) (ty : Ty)

/-- The state after a request. -/
def Request.leave (s : Splitter) (state : SplitState) : Request → SplitState
  | .memberPlan carrier expected => ((s.memberPlan carrier expected).run.run state).2
  | .carrierMap f carrier => ((s.carrierMap f carrier).run.run state).2
  | .split f carrier => ((s.split f carrier).run.run state).2
  | .newParam name ty => ((SplitM.newParam name ty).run.run state).2

/-- **The state after a history of requests.** -/
def after (s : Splitter) (requests : List Request) (state : SplitState) : SplitState :=
  requests.foldl (Request.leave s) state

variable {s : Splitter} {state : SplitState}

/-- Splitting leaves behind what making the carrier map does. -/
theorem split_leaves (s : Splitter) (f : Lambda) (carrier : Ty) (state : SplitState) :
    ((s.split f carrier).run.run state).2 = ((s.carrierMap f carrier).run.run state).2 := by
  simp only [split, ExceptT.run_bind, StateT.run_bind]
  rcases (s.carrierMap f carrier).run.run state with ⟨_ | _, _⟩ <;> rfl

/-- A request goes from a state that splitting can leave behind to another one. -/
theorem Request.reached_leave (h : s.Reached state) (request : Request) :
    s.Reached (request.leave s state) := by
  cases request with
  | memberPlan carrier expected => exact h.memberPlan carrier expected
  | carrierMap f carrier =>
      rw [leave, ← split_leaves]
      exact h.split f carrier
  | split f carrier => exact h.split f carrier
  | newParam name ty => exact h.newParam name ty

/-- **Every history of requests** leaves behind a state that splitting can leave behind. -/
theorem reached_after (h : s.Reached state) (requests : List Request) :
    s.Reached (s.after requests state) := by
  induction requests generalizing state with
  | nil => exact h
  | cons request requests ih => exact ih (request.reached_leave h)

/-! ## Answers -/

/-- The splitter that remembers plans, or does not. -/
def remembering (s : Splitter) (remember : Bool) : Splitter :=
  { s with options := { s.options with cacheMemberPlans := remember } }

/-- **Memory is not observed.**  After every history, with memory or without, a plan is the one that
the schema gives, and so is a failure to find one.  A carrier map and a split function follow from
this plan, and from the one id that the history leaves as the next. -/
theorem memory_unobservable (s : Splitter) (remember : Bool) (requests : List Request)
    (ids : IdSupply) (carrier : Ty) :
    let t := s.remembering remember
    let state := t.after requests { ids }
    (∀ expected, ((t.memberPlan carrier expected).run.run state).1 = (do
      let members ← (s.schema.members carrier).mapError .schema
      MemberPlan.ofMembers s.options.matchMode carrier members expected)) ∧
    ∀ f, ((t.carrierMap f carrier).run.run state).1 =
        (s.planOf f carrier).map (.ofPlan (s.nextCarrier state carrier) f.params) ∧
      ((t.split f carrier).run.run state).1 =
        (s.planOf f carrier).map fun plan =>
          (CarrierMap.ofPlan (s.nextCarrier state carrier) f.params plan).splitLambda f := by
  intro t state
  have remembers : t.Remembers state := (reached_after (.start ids) requests).remembers
  refine ⟨fun expected => ?_, fun f => ⟨?_, ?_⟩⟩
  · obtain ⟨_, -, run⟩ := memberPlan_run remembers carrier expected
    rw [run]
    rfl
  · obtain ⟨_, -, run, -⟩ := carrierMap_run remembers f carrier
    rw [run]
    rfl
  · obtain ⟨_, -, run, -⟩ := split_run remembers f carrier
    rw [run]
    rfl

end RowQuery.Splitter
