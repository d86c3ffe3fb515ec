import RowQuery.Proofs.Registrations
import RowQuery.Proofs.Split.Equivalence
import RowQuery.Proofs.Substitution.References

/-!
# Which functions have a carrier map

A carrier map is made in four steps: the parameters of the function are looked at, then its body,
then the carrier is looked up, and at last its members are matched.  The first step that fails says
why there is no map.  If none fails, there is one, and each parameter stands for a member of its own.

* `Lambda.Refused` — what may be wrong with a function; `Lambda.checkParams_eq_error_iff`.
* `Splitter.Rejects` — why there is no map; `Splitter.planOf_eq_error_iff`.
* `MemberPlan.Serves.nodup_names` — different members have different names.
* `CarrierMap.get?_eq_lookup` — the map and its bindings say the same.
* `CarrierMap.Covers` — what a map is for a function.
* **`Splitter.carrierMap_outcome`** — the rejections and the maps of a splitter.
-/

namespace RowQuery

/-! ## Functions that are refused -/

namespace Lambda

/-- **What may be wrong with a function**, in the order in which it is looked for: it has no
parameters, a parameter repeats the id of an earlier one, or its body refers freely to something
else than its parameters.  The first repetition and the first such reference are reported. -/
inductive Refused (f : Lambda) : SplitError → Prop
  | empty (isEmpty : f.params = []) : Refused f .emptyParameterList
  | duplicate {before after : List Param} {p : Param} (params : f.params = before ++ p :: after)
      (distinct : (before.map (·.id)).Nodup) (repeated : p.id ∈ before.map (·.id)) :
      Refused f (.duplicateParameter p.name)
  | undeclared {before after : List Ref} {r : Ref} (nonempty : f.params ≠ [])
      (distinct : (f.params.map (·.id)).Nodup) (refs : f.body.refs = before ++ r :: after)
      (declared : ∀ q ∈ before, q.Bound ∨ q.param.id ∈ f.params.map (·.id))
      (free : ¬ r.Bound) (foreign : r.param.id ∉ f.params.map (·.id)) :
      Refused f (.undeclaredParameter r.param.name)

variable {f : Lambda}

/-- **The first free parameter that is not declared** is the first free reference that is not. -/
theorem find?_freeParams_eq_some_iff {ids : List ParamId} {p : Param} :
    (f.body.freeParams.find? fun p => p.id ∉ ids) = some p ↔
      ∃ before r after, f.body.refs = before ++ r :: after ∧ r.param = p ∧
        (∀ q ∈ before, q.Bound ∨ q.param.id ∈ ids) ∧ ¬ r.Bound ∧ r.param.id ∉ ids := by
  rw [Expr.find?_freeParams, Expr.freeRefs_eq, List.find?_map, List.find?_filter,
    Option.map_eq_some_iff]
  constructor
  · rintro ⟨r, first, rfl⟩
    obtain ⟨found, before, after, refs, passed⟩ := List.find?_eq_some_iff_append.mp first
    refine ⟨before, r, after, refs, rfl, fun q hq => ?_, by simpa using found⟩
    simpa using passed q hq
  · rintro ⟨before, r, after, refs, rfl, declared, free⟩
    refine ⟨r, List.find?_eq_some_iff_append.mpr ⟨?_, before, after, refs, fun q hq => ?_⟩, rfl⟩
    · simpa using free
    · simpa using declared q hq

/-- **A function is refused** for the first thing that is wrong with it. -/
theorem checkParams_eq_error_iff {e : SplitError} : f.checkParams = .error e ↔ f.Refused e := by
  constructor
  · intro h
    unfold checkParams at h
    split at h
    case isTrue isEmpty =>
      cases h
      exact .empty (List.isEmpty_iff.mp isEmpty)
    case isFalse nonempty =>
      split at h
      case h_1 p found =>
        cases h
        obtain ⟨before, after, params, distinct, repeated⟩ := firstRepeat?_eq_some_iff.mp found
        exact .duplicate params distinct repeated
      case h_2 distinct =>
        split at h
        case h_1 p found =>
          cases h
          obtain ⟨before, r, after, refs, rfl, declared, free, foreign⟩ :=
            find?_freeParams_eq_some_iff.mp found
          exact .undeclared (mt List.isEmpty_iff.mpr nonempty)
            (firstRepeat?_eq_none_iff.mp distinct) refs declared free foreign
        case h_2 => cases h
  · intro refused
    unfold checkParams
    cases refused with
    | empty isEmpty =>
        rw [isEmpty]
        rfl
    | @duplicate before after p params distinct repeated =>
        have found := firstRepeat?_eq_some_iff.mpr ⟨before, after, params, distinct, repeated⟩
        rw [if_neg (by simp [params]), found]
        rfl
    | @undeclared before after r nonempty distinct refs declared free foreign =>
        have found := find?_freeParams_eq_some_iff.mpr
          ⟨before, r, after, refs, rfl, declared, free, foreign⟩
        rw [if_neg (by simpa using nonempty), firstRepeat?_eq_none_iff.mpr distinct, found]
        rfl

/-- It passes if nothing is wrong with it. -/
theorem checkParams_eq_ok_iff_not_refused : f.checkParams = .ok () ↔ ∀ e, ¬ f.Refused e := by
  simp only [← checkParams_eq_error_iff]
  cases f.checkParams with
  | ok _ => simp
  | error e => simp

end Lambda

/-! ## Carriers that are refused -/

namespace Splitter

/-- **Why there is no map** of a function's parameters: the function is refused, or the carrier has
no members, or they do not match the declared types. -/
inductive Rejects (s : Splitter) (f : Lambda) (carrier : Ty) : SplitError → Prop
  | function {e : SplitError} (refused : f.Refused e) : Rejects s f carrier e
  | schema {e : SchemaError} (accepted : ∀ e, ¬ f.Refused e)
      (unknown : s.schema.members carrier = .error e) : Rejects s f carrier (.schema e)
  | matching {members : List FieldDef} {e : SplitError} (accepted : ∀ e, ¬ f.Refused e)
      (known : s.schema.members carrier = .ok members)
      (unmatched : MemberPlan.ofMembers s.options.matchMode carrier members f.paramTys = .error e) :
      Rejects s f carrier e

variable {s : Splitter} {f : Lambda} {carrier : Ty}

/-- **There is no plan** exactly for these causes. -/
theorem planOf_eq_error_iff {e : SplitError} :
    s.planOf f carrier = .error e ↔ s.Rejects f carrier e := by
  simp only [planOf, computePlan, bind_eq_error_iff, mapError_eq_error_iff, mapError_eq_ok_iff,
    Lambda.checkParams_eq_error_iff]
  constructor
  · rintro (refused | ⟨_, check, ⟨cause, unknown, rfl⟩ | ⟨members, known, unmatched⟩⟩)
    · exact .function refused
    · exact .schema (Lambda.checkParams_eq_ok_iff_not_refused.mp check) unknown
    · exact .matching (Lambda.checkParams_eq_ok_iff_not_refused.mp check) known unmatched
  · rintro (refused | ⟨accepted, unknown⟩ | ⟨accepted, known, unmatched⟩)
    · exact .inl refused
    · exact .inr ⟨(), Lambda.checkParams_eq_ok_iff_not_refused.mpr accepted, .inl ⟨_, unknown, rfl⟩⟩
    · exact .inr ⟨(), Lambda.checkParams_eq_ok_iff_not_refused.mpr accepted,
        .inr ⟨_, known, unmatched⟩⟩

end Splitter

/-! ## Names of members -/

namespace MemberPlan.Serves

variable {mode : MatchMode} {members : List FieldDef} {expected : List Ty} {plan : MemberPlan}

/-- The name of a chosen member is the one at its position. -/
theorem name_at (serves : plan.Serves mode members expected) :
    ∀ slot ∈ plan.slots, (members.map FieldDef.name)[slot.index]? = some slot.name := by
  obtain ⟨fitting, -, -⟩ := serves
  generalize plan.slots = slots at fitting
  induction fitting with
  | nil => exact List.forall_mem_nil _
  | cons found _ ih =>
      refine List.forall_mem_cons.mpr ⟨?_, ih⟩
      rw [List.getElem?_map, found.1]
      rfl

theorem names_subset (serves : plan.Serves mode members expected) :
    plan.names ⊆ members.map FieldDef.name := by
  rintro _ hname
  obtain ⟨slot, hslot, rfl⟩ := List.mem_map.mp hname
  exact List.mem_of_getElem? (serves.name_at slot hslot)

/-- **Different members have different names** if the members of the carrier do. -/
theorem nodup_names (serves : plan.Serves mode members expected)
    (apart : (members.map FieldDef.name).Nodup) : plan.names.Nodup := by
  have distinct := serves.distinct
  rw [List.nodup_iff_pairwise_ne, List.pairwise_map] at distinct
  rw [names, List.nodup_iff_pairwise_ne, List.pairwise_map]
  refine distinct.imp_of_mem fun {a b} ha hb different same => different ?_
  have found := serves.name_at a ha
  obtain ⟨bound, -⟩ := List.getElem?_eq_some_iff.mp found
  exact (List.getElem?_inj bound apart).mp (by rw [found, serves.name_at b hb, same])

end MemberPlan.Serves

/-! ## Maps -/

namespace CarrierMap

/-- **The map and its bindings say the same.** -/
theorem get?_eq_lookup (map : CarrierMap) (id : ParamId) :
    map.get? id = map.bindings.lookup id := by
  unfold get? bindings
  induction map.entries with
  | nil => rfl
  | cons x rest ih =>
      by_cases same : x.1.id = id
      · simp [same]
      · have other : (id == x.1.id) = false := beq_eq_false_iff_ne.mpr (Ne.symm same)
        rw [List.find?_cons_of_neg (by simpa using same), ih, List.map_cons, List.lookup_cons,
          other]

theorem map_fst_bindings (map : CarrierMap) :
    map.bindings.map Prod.fst = (map.entries.map Prod.fst).map (·.id) := by
  rw [bindings, List.map_map, List.map_map]
  rfl

/-- A map that follows a plan has an access to each chosen member, under the declared type. -/
theorem accesses_ofPlan (carrier : Param) {params : List Param} {plan : MemberPlan}
    (hlen : params.length = plan.slots.length) :
    List.Forall₂ (fun x name => x.2 = .member (.param carrier) name x.1.ty)
      (ofPlan carrier params plan).entries plan.names := by
  rw [ofPlan, MemberPlan.names, List.forall₂_map_left_iff, List.forall₂_map_right_iff]
  generalize plan.slots = slots at hlen
  induction params generalizing slots with
  | nil =>
      cases List.length_eq_zero_iff.mp hlen.symm
      exact .nil
  | cons p ps ih =>
      cases slots with
      | nil => cases hlen
      | cons slot slots => exact .cons rfl (ih slots (Nat.succ.inj hlen))

/-- **What a map is for a function**, over a carrier with these members. -/
structure Covers (map : CarrierMap) (carrier : Param) (members : List FieldDef) (f : Lambda) :
    Prop where
  /-- All accesses are to members of the one carrier. -/
  carrier_eq : map.carrier = carrier
  /-- One entry for each parameter, in the order in which they are declared. -/
  params : map.entries.map Prod.fst = f.params
  /-- Each access has the type that its parameter declares, and a member for itself. -/
  accesses : ∃ names : List String, names.Nodup ∧ names ⊆ members.map FieldDef.name ∧
    List.Forall₂ (fun x name => x.2 = .member (.param carrier) name x.1.ty) map.entries names
  /-- The access of each parameter is found under its id. -/
  found : ∀ x ∈ map.entries,
    map.get? x.1.id = some x.2 ∧ map.bindings.lookup x.1.id = some x.2
  /-- Nothing is found under another id. -/
  other : ∀ id, id ∉ f.params.map (·.id) → map.get? id = none ∧ map.bindings.lookup id = none

/-- **Every map that follows a plan** covers the function that the plan was made for. -/
theorem covers_ofPlan {mode : MatchMode} {members : List FieldDef} {f : Lambda} {plan : MemberPlan}
    (carrier : Param) (distinct : (f.params.map (·.id)).Nodup)
    (apart : (members.map FieldDef.name).Nodup) (serves : plan.Serves mode members f.paramTys) :
    (ofPlan carrier f.params plan).Covers carrier members f := by
  have hlen : f.params.length = plan.slots.length := by
    rw [← serves.fitting.length_eq, Lambda.paramTys, List.length_map]
  have params : (ofPlan carrier f.params plan).entries.map Prod.fst = f.params := by
    rw [ofPlan, List.map_map]
    exact List.map_fst_zip (Nat.le_of_eq hlen)
  have keys : (ofPlan carrier f.params plan).bindings.map Prod.fst = f.params.map (·.id) := by
    rw [map_fst_bindings, params]
  refine ⟨rfl, params, ⟨plan.names, serves.nodup_names apart, serves.names_subset,
    accesses_ofPlan carrier hlen⟩, fun x hx => ?_, fun id undeclared => ?_⟩
  · have bound : (x.1.id, x.2) ∈ (ofPlan carrier f.params plan).bindings :=
      List.mem_map_of_mem (f := fun x : Param × Expr => (x.1.id, x.2)) hx
    rw [get?_eq_lookup, and_self]
    exact lookup_of_mem (keys ▸ distinct) bound
  · rw [get?_eq_lookup, and_self, List.lookup_eq_none_iff]
    intro x hx
    rw [bne_iff_ne]
    rintro rfl
    exact undeclared (keys ▸ List.mem_map_of_mem hx)

end CarrierMap

namespace Splitter

variable {s : Splitter} {state : SplitState} {definitions : List StructDef}

/-- **Which functions have a carrier map.**  In a schema of registered definitions, whatever was
split before: there is no map exactly if the function is refused for its parameters or its body, or
else the carrier has no members, or else they do not match; the first of these is the failure.
Otherwise there is a map, and it covers the function. -/
theorem carrierMap_outcome (registered : s.schema = ((Schema.registerEach definitions).run {}).2)
    (reached : s.Reached state) (f : Lambda) (carrier : Ty) :
    let outcome := ((s.carrierMap f carrier).run.run state).1
    (∀ e, outcome = .error e ↔ s.Rejects f carrier e) ∧
      ∀ map, outcome = .ok map → ∃ members, s.schema.members carrier = .ok members ∧
        map.Covers (s.nextCarrier state carrier) members f := by
  intro outcome
  obtain ⟨_, -, run, -⟩ := carrierMap_run reached.remembers f carrier
  have follows : outcome = (s.planOf f carrier).map
      (.ofPlan (s.nextCarrier state carrier) f.params) := congrArg Prod.fst run
  refine ⟨fun e => ?_, fun map made => ?_⟩
  · rw [follows, map_eq_error_iff, planOf_eq_error_iff]
  · rw [follows] at made
    obtain ⟨plan, planned, rfl⟩ := map_eq_ok_iff.mp made
    obtain ⟨check, computed, -⟩ := planOf_eq_ok planned
    obtain ⟨members, known, matched⟩ := bind_eq_ok_iff.mp computed
    rw [mapError_eq_ok_iff] at known
    have apart : s.schema.FieldsApart := by
      rw [registered]
      exact Schema.FieldsApart.registerEach (fun _ h => absurd h List.not_mem_nil) definitions
    exact ⟨members, known, CarrierMap.covers_ofPlan _ (Lambda.checkParams_eq_ok_iff.mp check).2.1
      (apart.members known) (MemberPlan.serves_of_ofMembers matched)⟩

/-- `|x, y, x| z`, in which a parameter is repeated and the body refers to something else. -/
def repeating : Lambda :=
  let x : Param := ⟨⟨100⟩, "x", .int⟩
  let y : Param := ⟨⟨101⟩, "y", .int⟩
  ⟨[x, y, x], .param ⟨⟨102⟩, "z", .int⟩⟩

/-- Over points the repetition is reported, and the map of another function has both members. -/
theorem carrierMap_outcome_points :
    let row : Param := ⟨⟨0⟩, "row", .con "Point"⟩
    let map : CarrierMap :=
      .ofPlan row scaled.params ⟨.con "Point", [⟨0, "x", .int⟩, ⟨1, "y", .int⟩]⟩
    points.Rejects repeating (.con "Point") (.duplicateParameter "x") ∧
      ¬ points.Rejects repeating (.con "Point") (.undeclaredParameter "z") ∧
      ((points.carrierMap scaled (.con "Point")).run.run {}).1 = .ok map ∧
      map.get? ⟨101⟩ = some (.member (.param row) "y" .int) ∧
      map.Covers row [⟨"x", .int⟩, ⟨"y", .int⟩] scaled := by
  intro row map
  have registered : points.schema = ((Schema.registerEach points.schema.structs).run {}).2 := rfl
  obtain ⟨rejected, -⟩ := carrierMap_outcome registered (.start {}) repeating (.con "Point")
  obtain ⟨-, covered⟩ := carrierMap_outcome registered (.start {}) scaled (.con "Point")
  obtain ⟨members, known, covers⟩ := covered map rfl
  cases known
  refine ⟨(rejected _).mp rfl, fun h => ?_, rfl, rfl, covers⟩
  cases (rejected _).mpr h

end Splitter

end RowQuery
