import RowQuery.Proofs.Split.Equivalence
import RowQuery.Proofs.Split.Requests
import RowQuery.Proofs.Substitution.References

/-!
# Hygiene of the carrier

Substitution does not rename, so a split function is right only if its carrier is not captured.  The
id of the carrier is the next one of a supply.  The supply knows the ids that it handed out, and no
others: parameters that were read from storage may have any id.

* `IdSupply.block` — the next ids of a supply.  The id after fewer than `2 ^ 32` of them is new.
* `Splitter.issued` — the ids that a history of requests hands out: `Splitter.issued_eq_block`.
* `CarrierMap.roots`, `CarrierMap.refs_splitLambda` — the references to the carrier, which stand
  where the free references of the function stood.
* `CarrierMap.Hygienic` — what hygiene is.
* **`Splitter.carrierMap_hygienic_iff`** — a carrier is hygienic exactly if the function does not
  have the next id of the supply, and so it is if all ids of the function are of the same history.
-/

namespace RowQuery

/-! ## Ids in a row -/

namespace IdSupply

/-- **The next ids** of a supply. -/
def block (ids : IdSupply) (n : Nat) : List ParamId :=
  (List.range n).map fun k => ⟨ids.next + UInt32.ofNat k⟩

/-- The supply after a number of ids. -/
def skip (ids : IdSupply) (n : Nat) : IdSupply := ⟨ids.next + UInt32.ofNat n⟩

@[simp]
theorem length_block (ids : IdSupply) (n : Nat) : (ids.block n).length = n := by simp [block]

theorem skip_skip (ids : IdSupply) (m n : Nat) : (ids.skip m).skip n = ids.skip (m + n) := by
  simp only [skip, UInt32.ofNat_add, UInt32.add_assoc]

/-- One block after the other. -/
theorem block_append (ids : IdSupply) (m n : Nat) :
    ids.block m ++ (ids.skip m).block n = ids.block (m + n) := by
  simp only [block, skip, List.range_add, List.map_append, List.map_map]
  refine congrArg _ (List.map_congr_left fun k _ => ?_)
  simp only [Function.comp_apply, UInt32.ofNat_add, UInt32.add_assoc]

/-- **The next id is new** as long as the supply has not gone around. -/
theorem next_skip_not_mem_block (ids : IdSupply) {n : Nat} (h : n < UInt32.size) :
    (⟨(ids.skip n).next⟩ : ParamId) ∉ ids.block n := by
  intro hmem
  obtain ⟨k, hk, same⟩ := List.mem_map.mp hmem
  rw [ParamId.mk.injEq, skip, UInt32.add_right_inj] at same
  have same := congrArg UInt32.toNat same
  have hk : k < n := List.mem_range.mp hk
  have small : k < UInt32.size := Nat.lt_trans hk h
  rw [UInt32.toNat_ofNat_of_lt' small, UInt32.toNat_ofNat_of_lt' h] at same
  exact Nat.ne_of_lt hk same

end IdSupply

/-! ## Ids of a history -/

namespace Splitter

/-- The ids that a request hands out: those of the parameters that it makes. -/
def Request.issued (s : Splitter) (state : SplitState) : Request → List ParamId
  | .memberPlan .. => []
  | .carrierMap f carrier =>
      match ((s.carrierMap f carrier).run.run state).1 with
      | .ok map => [map.carrier.id]
      | .error _ => []
  | .split f carrier =>
      match ((s.split f carrier).run.run state).1 with
      | .ok g => g.params.map (·.id)
      | .error _ => []
  | .newParam name ty =>
      match ((SplitM.newParam name ty).run.run state).1 with
      | .ok p => [p.id]
      | .error _ => []

/-- **The ids that a history of requests hands out**, in order. -/
def issued (s : Splitter) : List Request → SplitState → List ParamId
  | [], _ => []
  | request :: requests, state =>
      request.issued s state ++ s.issued requests (request.leave s state)

variable {s : Splitter} {state : SplitState}

/-- A request takes its ids from the supply, and these are the next ones. -/
theorem Request.issued_eq_block (h : s.Remembers state) (request : Request) :
    ∃ n, request.issued s state = state.ids.block n ∧
      (request.leave s state).ids = state.ids.skip n := by
  have none : ([] : List ParamId) = state.ids.block 0 ∧ state.ids = state.ids.skip 0 := by
    simp [IdSupply.block, IdSupply.skip]
  have one : [(⟨state.ids.next⟩ : ParamId)] = state.ids.block 1 ∧
      (⟨state.ids.next + 1⟩ : IdSupply) = state.ids.skip 1 := by
    simp [IdSupply.block, IdSupply.skip]
  cases request with
  | memberPlan carrier expected =>
      obtain ⟨cache, -, run⟩ := memberPlan_run h carrier expected
      refine ⟨0, none.1, ?_⟩
      rw [leave, run]
      exact none.2
  | carrierMap f carrier =>
      obtain ⟨after, -, run, ids⟩ := carrierMap_run h f carrier
      simp only [issued, leave, run, ids]
      cases s.planOf f carrier with
      | error e => exact ⟨0, none⟩
      | ok plan => exact ⟨1, one⟩
  | split f carrier =>
      obtain ⟨after, -, run, ids⟩ := split_run h f carrier
      simp only [issued, leave, run, ids]
      cases s.planOf f carrier with
      | error e => exact ⟨0, none⟩
      | ok plan => exact ⟨1, one⟩
  | newParam name ty => exact ⟨1, one⟩

/-- **A history hands out the next ids**, one after the other. -/
theorem issued_eq_block (h : s.Reached state) (requests : List Request) :
    s.issued requests state = state.ids.block (s.issued requests state).length ∧
      (s.after requests state).ids = state.ids.skip (s.issued requests state).length := by
  induction requests generalizing state with
  | nil => simp [issued, after, IdSupply.block, IdSupply.skip]
  | cons request requests ih =>
      obtain ⟨n, first, left⟩ := request.issued_eq_block h.remembers
      obtain ⟨rest, last⟩ := ih (request.reached_leave h)
      have all : s.issued (request :: requests) state =
          request.issued s state ++ s.issued requests (request.leave s state) := rfl
      rw [left] at rest last
      rw [all, first, List.length_append, IdSupply.length_block]
      constructor
      · rw [← IdSupply.block_append, ← rest]
      · rw [← IdSupply.skip_skip]
        exact last

end Splitter

/-! ## The references to the carrier -/

/-- **All ids** that a function declares or refers to, those of nested functions included. -/
def Lambda.ids (f : Lambda) : List ParamId := f.params.map (·.id) ++ f.body.ids

namespace CarrierMap

/-- **The roots of the accesses** in a split function: a reference to the carrier for each free
reference of the function, below the same nested functions. -/
def roots (map : CarrierMap) (f : Lambda) : List Ref :=
  (f.body.refs.filter fun r => ¬ r.Bound).map fun r => { r with param := map.carrier }

/-- **The references of a split function** are the roots, and the bound references as they were. -/
theorem refs_splitLambda {carrier : Param} {f : Lambda} {plan : MemberPlan}
    (check : f.checkParams = .ok ()) (hlen : plan.slots.length = f.params.length) :
    ((ofPlan carrier f.params plan).splitLambda f).body.refs =
      f.body.refs.map fun r => if r.Bound then r else { r with param := carrier } := by
  have single : ∀ id x, (ofPlan carrier f.params plan).bindings.lookup id = some x →
      x.refs = [⟨carrier, []⟩] := by
    intro id x hx
    obtain ⟨name, ty, rfl⟩ := eq_member_of_lookup hx
    rfl
  rw [splitLambda, Expr.refs_subst_of_single single]
  refine List.map_congr_left fun r hr => ?_
  by_cases bound : r.Bound
  · rw [Ref.redirect, if_pos (.inl bound), if_pos bound]
  · have free : r.param ∈ f.body.freeRefs := by
      rw [Expr.freeRefs_eq]
      exact List.mem_map_of_mem (List.mem_filter.mpr ⟨hr, decide_eq_true bound⟩)
    obtain ⟨slot, hslot⟩ :=
      exists_slotOf hlen ((Lambda.checkParams_eq_ok_iff.mp check).2.2 _ free)
    obtain ⟨ty, -, access⟩ := exists_access hslot
    rw [Ref.redirect, if_neg (by simp [bound, access carrier]), if_neg bound]

/-- **Hygiene of a carrier.** -/
structure Hygienic (map : CarrierMap) (f : Lambda) : Prop where
  /-- The carrier's id is new: the function neither declares it nor refers to it. -/
  fresh : map.carrier.id ∉ f.ids
  /-- No root stands below a nested function that declares the carrier's id. -/
  uncaptured : ∀ r ∈ map.roots f, map.carrier.id ∉ r.above
  /-- Every root reads the carrier, whatever the nested functions around it are called with. -/
  reads : ∀ r ∈ map.roots f, ∀ row, r.Reads (Env.bind [] [map.carrier] [row]) row

/-- **Hygiene follows from a new id.** -/
theorem hygienic_iff {map : CarrierMap} {f : Lambda} :
    map.Hygienic f ↔ map.carrier.id ∉ f.ids := by
  refine ⟨Hygienic.fresh, fun fresh => ?_⟩
  have uncaptured : ∀ r ∈ map.roots f, map.carrier.id ∉ r.above := by
    intro r hr captured
    obtain ⟨inner, hinner, rfl⟩ := List.mem_map.mp hr
    have declared := Expr.above_subset_declared (List.mem_filter.mp hinner).1 captured
    exact fresh (List.mem_append_right _ (List.mem_append_left _ declared))
  refine ⟨fresh, uncaptured, fun r hr => ?_⟩
  have free := uncaptured r hr
  obtain ⟨inner, -, rfl⟩ := List.mem_map.mp hr
  exact Ref.reads_bind_iff.mpr free

end CarrierMap

namespace Splitter

variable {s : Splitter} {f : Lambda} {carrier : Ty} {map : CarrierMap} {requests : List Request}
  {ids : IdSupply}

/-- **Hygiene of the carrier.**  After any history, the accesses of a split function stand where the
function refers to its parameters, and have the carrier as their root.  The carrier is hygienic
exactly if its id, the next one of the supply, does not occur in the function.  So it is if all ids
of the function were handed out in the same history, and fewer than `2 ^ 32` of them. -/
theorem carrierMap_hygienic_iff
    (made : ((s.carrierMap f carrier).run.run (s.after requests { ids })).1 = .ok map) :
    ((map.splitLambda f).params = [map.carrier] ∧ (map.splitLambda f).body.refs =
      f.body.refs.map fun r => if r.Bound then r else { r with param := map.carrier }) ∧
    (map.Hygienic f ↔ ⟨(s.after requests { ids }).ids.next⟩ ∉ f.ids) ∧
    (f.ids ⊆ s.issued requests { ids } → (s.issued requests { ids }).length < UInt32.size →
      map.Hygienic f) := by
  have reached : s.Reached (s.after requests { ids }) := reached_after (.start ids) requests
  obtain ⟨_, -, run, -⟩ := carrierMap_run reached.remembers f carrier
  obtain ⟨plan, planned, rfl⟩ : ∃ plan, s.planOf f carrier = .ok plan ∧
      map = .ofPlan (s.nextCarrier (s.after requests { ids }) carrier) f.params plan := by
    rw [run] at made
    cases planned : s.planOf f carrier with
    | error e =>
        rw [planned] at made
        cases made
    | ok plan =>
        rw [planned] at made
        cases made
        exact ⟨plan, rfl, rfl⟩
  obtain ⟨_, check, computed⟩ := bind_eq_ok_iff.mp planned
  have hlen : plan.slots.length = f.params.length := by
    rw [length_slots computed, Lambda.paramTys, List.length_map]
  refine ⟨⟨rfl, CarrierMap.refs_splitLambda check hlen⟩, CarrierMap.hygienic_iff, ?_⟩
  intro here few
  obtain ⟨block, next⟩ := issued_eq_block (.start ids) requests
  rw [CarrierMap.hygienic_iff]
  intro old
  have new := ids.next_skip_not_mem_block few
  have next' : (s.after requests { ids }).ids = ids.skip (s.issued requests { ids }).length := next
  rw [← next', ← block] at new
  exact new (here old)

/-- `|x, y| (|t| t + x * y)(10)`, whose parameters have the given ids. -/
def scaledTen (x y t : ParamId) : Lambda :=
  let x : Param := ⟨x, "x", .int⟩
  let y : Param := ⟨y, "y", .int⟩
  let t : Param := ⟨t, "t", .int⟩
  let product : Expr := .binaryOf (.arith .mul) (.param x) (.param y)
  ⟨[x, y], .invoke (.lambda [t] (.binaryOf (.arith .add) (.param t) product)) [.lit (.int 10)] .int⟩

/-- The parameters of `scaledTen`, made one after the other. -/
def threeNumbers : List Request := ["x", "y", "t"].map (.newParam · .int)

/-- A function whose three parameters were made before gets a hygienic carrier. -/
theorem carrierMap_hygienic_threeNumbers :
    ∃ map, ((points.carrierMap (scaledTen ⟨0⟩ ⟨1⟩ ⟨2⟩) (.con "Point")).run.run
        (points.after threeNumbers {})).1 = .ok map ∧
      map.carrier.id = ⟨3⟩ ∧ map.Hygienic (scaledTen ⟨0⟩ ⟨1⟩ ⟨2⟩) := by
  have made : ((points.carrierMap (scaledTen ⟨0⟩ ⟨1⟩ ⟨2⟩) (.con "Point")).run.run
      (points.after threeNumbers {})).1 = .ok _ := rfl
  exact ⟨_, made, rfl, (carrierMap_hygienic_iff made).2.2 (by decide) (by decide)⟩

/-- **A carrier that is not hygienic.**  The nested function was read from storage, and the id of its
parameter is the one that a new supply hands out first.  So the root of each access is captured, and
the call of the split function fails where the function itself has a value. -/
theorem not_hygienic_of_stored :
    ∃ map, ((points.carrierMap (scaledTen ⟨100⟩ ⟨101⟩ ⟨0⟩) (.con "Point")).run.run {}).1 =
        .ok map ∧
      ¬ map.Hygienic (scaledTen ⟨100⟩ ⟨101⟩ ⟨0⟩) ∧
      (∀ r ∈ map.roots (scaledTen ⟨100⟩ ⟨101⟩ ⟨0⟩), map.carrier.id ∈ r.above) ∧
      ((scaledTen ⟨100⟩ ⟨101⟩ ⟨0⟩).call 8 [.int 2, .int 3]).run 0 = .ok (.int 16, 1) ∧
      ((map.splitLambda (scaledTen ⟨100⟩ ⟨101⟩ ⟨0⟩)).call 8
        [.record "Point" [("x", .int 2), ("y", .int 3)]]).run 0 =
          .error (.fault (.typeMismatch "member access" "10")) := by
  refine ⟨_, rfl, ?_, by decide, rfl, rfl⟩
  rw [CarrierMap.hygienic_iff]
  decide

end Splitter

end RowQuery
