import Mathlib.Logic.Equiv.Basic
import RowQuery.Proofs.Alike.Bisimulation
import RowQuery.Proofs.Relabeling.Splitting

/-!
# Parameters are known by id only

Two functions that are the same after relabeling behave alike, in evaluation and when they are
split.  Other ids with the same names leave the failures as they are; other names show in the
wording of failures and nowhere else.

* `Relabeling.same`, `Relabeling.ofIds`, `Relabeling.unnamed` — no relabeling, other ids alone, and
  the relabeling that forgets all names.
* `Value.Correspondence` — relations that keep what can be observed of values, up to what failures
  report.
* **`Value.sameUnder_correspondence`**, `Lambda.call_sameUnder` — values and functions that are the
  same after relabeling.
* `Splitter.split_ofIds` — splitting under other ids: the same up to the carrier.
* `Splitter.carrierMap_unnamed`, `Splitter.split_unnamed` — splitting under other names.
* **`Splitter.known_by_id`** — all of it together.
-/

namespace RowQuery

/-! ## Relabelings of ids and of names -/

namespace Relabeling

/-- **Other ids** with the same names. -/
def ofIds (ρ : ParamId → ParamId) (injective : Function.Injective ρ) : Relabeling :=
  ⟨ρ, id, injective⟩

/-- The same ids and the same names. -/
def same : Relabeling := ofIds id Function.injective_id

/-- **No names**, with the same ids.  Trees differ in names alone if they are the same then. -/
def unnamed : Relabeling := ⟨id, fun _ => "", Function.injective_id⟩

variable {ρ : ParamId → ParamId} {injective : Function.Injective ρ}

/-- Other ids leave failures of evaluation as they are. -/
theorem halt_ofIds : Halt.relabel (ofIds ρ injective) = id := by
  funext halt
  cases halt with
  | fault e => cases e <;> rfl
  | depth => rfl

/-- Other ids leave failures of splitting as they are. -/
theorem mapError_ofIds {α : Type} (x : Except SplitError α) :
    x.mapError (SplitError.relabel (ofIds ρ injective)) = x := by
  cases x with
  | ok a => rfl
  | error e => cases e <;> rfl

end Relabeling

theorem Param.map_relabel_same (params : List Param) : params.map (relabel .same) = params :=
  List.map_id params

theorem Expr.relabel_same (e : Expr) : e.relabel .same = e := by
  induction e using inductCompound with
  | param p => rfl
  | lit l => rfl
  | compound e h ih =>
    rw [h.relabel_eq, mapChildren_congr (g := id) ih, mapChildren_id]
  | lambda params body ih => rw [relabel, ih, Param.map_relabel_same]

theorem Lambda.relabel_same (f : Lambda) : f.relabel .same = f := by
  rw [relabel, Expr.relabel_same, Param.map_relabel_same]

/-! ## Values that correspond -/

/-- A computation whose failures are reported otherwise. -/
def EvalM.reporting {α : Type} (report : Halt → Halt) (c : EvalM α) : EvalM α :=
  fun n => (c n).mapError report

theorem EvalM.reporting_id {α : Type} (c : EvalM α) : c.reporting id = c := by
  funext n
  unfold reporting
  cases c n <;> rfl

namespace Value

/-- **Relations that keep what can be observed of values**, up to what failures report.  Related
values match layer by layer, are equal in the same cases, and give related results when they are
called on related arguments, then or at any later time.  Without closures they are equal. -/
structure Correspondence (report : Halt → Halt) (R : Pairing → Value → Value → Prop) : Prop where
  persistent : Persistent R
  layer : ∀ {w : Pairing} {a b : Value}, R w a b → Matches w (R w) a b
  data : ∀ {w : Pairing} {a b : Value}, R w a b → a.ClosureFree → a = b
  equal : ∀ {w : Pairing} {a a' b b' : Value}, R w a a' → R w b b' → (a == b) = (a' == b')
  call : ∀ {w v : Pairing} {f g : Value} {args args' : List Value}, R w f g → w ≤ v →
    List.Forall₂ (R v) args args' → ∀ depth : Nat,
      Agree v R (((Lambda.apply depth).value f args).reporting report)
        (((Lambda.apply depth).value g args').reporting report)

/-- **Values that are the same after relabeling**, up to the numbers of closures. -/
def SameUnder (r r' : Relabeling) (w : Pairing) (a b : Value) : Prop :=
  (a.relabel r).Alike w (b.relabel r')

variable {r r' : Relabeling} {w : Pairing}

namespace SameUnder

/-- A value whose closures are paired with themselves is the same after one relabeling. -/
theorem refl {a : Value} (h : ∀ i ∈ a.closureIds, w.rel i i) : SameUnder r r w a a :=
  Alike.refl fun i hi => h i (closureIds_relabel a ▸ hi)

/-- Values without closures are the same after any relabeling. -/
theorem of_closureFree {a : Value} (free : a.ClosureFree) : SameUnder r r' w a a := by
  rw [SameUnder, relabel_of_closureFree free, relabel_of_closureFree free]
  refine .refl fun i hi => ?_
  rw [free] at hi
  cases hi

/-- Without closures nothing is relabeled. -/
theorem eq_of_closureFree {a b : Value} (h : SameUnder r r' w a b) (free : a.ClosureFree) :
    a = b := by
  rw [SameUnder, relabel_of_closureFree free] at h
  have same : a = b.relabel r' := Alike.bisimulation.eq_of_closureFree h free
  have free' : b.ClosureFree := by
    rw [ClosureFree, ← closureIds_relabel, ← same]
    exact free
  rwa [relabel_of_closureFree free'] at same

/-- Members of values that are the same after relabeling are so too. -/
theorem layer {a b : Value} (h : SameUnder r r' w a b) : Matches w (SameUnder r r' w) a b := by
  have same : Matches w (Value.Alike w) (a.relabel r) (b.relabel r') := Alike.bisimulation.layer h
  cases a with
  | tuple items =>
    cases b with
    | tuple others =>
      simp only [relabel, relabelList_eq_map, Matches, List.forall₂_map_left_iff,
        List.forall₂_map_right_iff] at same
      exact same
    | _ => cases same
  | list items =>
    cases b with
    | list others =>
      simp only [relabel, relabelList_eq_map, Matches, List.forall₂_map_left_iff,
        List.forall₂_map_right_iff] at same
      exact same
    | _ => cases same
  | record name fields =>
    cases b with
    | record name' others =>
      simp only [relabel, relabelFields_eq_map, Matches, List.forall₂_map_left_iff,
        List.forall₂_map_right_iff] at same
      exact same
    | _ => cases same
  | closure i f captured =>
    cases b with
    | closure j g captured' =>
      simp only [relabel, Matches, Lambda.arity_relabel] at same
      exact same
    | _ => cases same
  | _ =>
    cases b <;> first | exact same | cases same

end SameUnder

/-- Computations that agree after relabeling, with their results and failures. -/
theorem agree_sameUnder {c d : EvalM Value}
    (h : Agree w Alike (r.under (relabel r) c) (r'.under (relabel r') d)) :
    Agree w (SameUnder r r') (c.reporting (Halt.relabel r)) (d.reporting (Halt.relabel r')) := by
  unfold Agree Relabeling.under at h
  unfold Agree EvalM.reporting
  cases hc : c w.left <;> cases hd : d w.right <;> simp only [hc, hd] at h
  · exact h
  · exact h
  · exact h
  · exact h

/-- **Values that are the same after relabeling correspond.** -/
theorem sameUnder_correspondence {report : Halt → Halt} (left : Halt.relabel r = report)
    (right : Halt.relabel r' = report) : Correspondence report (SameUnder r r') where
  persistent _ _ hwv _ _ h := Alike.persistent hwv h
  layer := SameUnder.layer
  data := SameUnder.eq_of_closureFree
  equal := by
    intro w a a' b b' ha hb
    have same : (a.relabel r == b.relabel r) = (a'.relabel r' == b'.relabel r') := ha.same_eq hb
    have left : (a.relabel r == b.relabel r) = (a == b) := same_relabel a b
    have right : (a'.relabel r' == b'.relabel r') = (a' == b') := same_relabel a' b'
    rw [← left, same, right]
  call := by
    intro w v f g args args' hfg hwv hargs depth
    have hargs' : List.Forall₂ (Alike v) (args.map (relabel r)) (args'.map (relabel r')) := by
      rw [List.forall₂_map_left_iff, List.forall₂_map_right_iff]
      exact hargs
    have agree := Alike.call hfg hwv hargs' depth
    rw [(Lambda.apply_commutes depth).value, (Lambda.apply_commutes depth).value] at agree
    have agree := agree_sameUnder agree
    rw [left, right] at agree
    exact agree

end Value

/-- **Functions that are the same after relabeling** behave alike on such arguments. -/
theorem Lambda.call_sameUnder {r r' : Relabeling} {w : Pairing} {f g : Lambda}
    (same : f.relabel r = g.relabel r') {args args' : List Value}
    (hargs : List.Forall₂ (Value.SameUnder r r' w) args args') (depth : Nat) :
    Agree w (Value.SameUnder r r') ((f.call depth args).reporting (Halt.relabel r))
      ((g.call depth args').reporting (Halt.relabel r')) := by
  have hargs' : List.Forall₂ (Value.Alike w) (args.map (Value.relabel r))
      (args'.map (Value.relabel r')) := by
    rw [List.forall₂_map_left_iff, List.forall₂_map_right_iff]
    exact hargs
  have agree := (f.relabel r).call_agree depth hargs'
  rw [call_relabel, same, call_relabel] at agree
  exact Value.agree_sameUnder agree

/-! ## Splitting -/

namespace Relabeling

/-- **A relabeling of one more id**: what the ids of a function become stays, and a new id becomes
another new one.  The two images of the new id change places. -/
theorem exists_extend (ρ : ParamId → ParamId) (injective : Function.Injective ρ)
    {ids : List ParamId} {id id' : ParamId} (fresh : id ∉ ids) (fresh' : id' ∉ ids.map ρ) :
    ∃ τ : ParamId → ParamId, Function.Injective τ ∧ (∀ i ∈ ids, τ i = ρ i) ∧ τ id = id' := by
  refine ⟨Equiv.swap (ρ id) id' ∘ ρ, (Equiv.injective _).comp injective, fun i hi => ?_, ?_⟩
  · have old : ρ i ≠ ρ id := fun eq => fresh (injective eq ▸ hi)
    have old' : ρ i ≠ id' := fun eq => fresh' (eq ▸ List.mem_map_of_mem hi)
    exact Equiv.swap_apply_of_ne_of_ne old old'
  · exact Equiv.swap_apply_left _ _

end Relabeling

/-- What becomes of equal results, up to what their failures report. -/
theorem outcomes_map {ε α β γ : Type} {report : ε → ε} {R : β → γ → Prop} {f : α → β} {g : α → γ}
    {x y : Except ε α} (h : x.mapError report = y.mapError report) (hfg : ∀ a, R (f a) (g a)) :
    Outcomes R ((x.map f).mapError report) ((y.map g).mapError report) := by
  cases x with
  | error e =>
    cases y with
    | error e' => exact Except.error.inj h
    | ok b => cases h
  | ok a =>
    cases y with
    | error e' => cases h
    | ok b =>
      obtain rfl := Except.ok.inj h
      exact hfg a

/-- Functions that differ in names alone declare the same ids and types. -/
theorem Lambda.declarations_unnamed {f f' : Lambda}
    (named : f.relabel .unnamed = f'.relabel .unnamed) :
    (f.params.map fun p => (p.id, p.ty)) = f'.params.map fun p => (p.id, p.ty) := by
  have unnamed := congrArg (fun g : Lambda => g.params.map fun p => (p.id, p.ty)) named
  simp only [relabel, List.map_map] at unnamed
  exact unnamed

/-- What a plan makes of parameters depends on their ids and types alone. -/
theorem CarrierMap.bindings_congr {carrier : Param} {params params' : List Param}
    {plan : MemberPlan}
    (same : (params.map fun p => (p.id, p.ty)) = params'.map fun p => (p.id, p.ty)) :
    (ofPlan carrier params plan).bindings = (ofPlan carrier params' plan).bindings := by
  have access (ps : List Param) : (ofPlan carrier ps plan).bindings =
      ((ps.map fun p => (p.id, p.ty)).zip plan.slots).map fun x =>
        (x.1.1, .member (.param carrier) x.2.name x.1.2) := by
    simp only [bindings, ofPlan, List.map_map, List.zip_map_left]
    rfl
  rw [access, access, same]

namespace Splitter

variable {s : Splitter} {state state' : SplitState} {f f' : Lambda}

/-- **Splitting a function with other ids** gives the split function with other ids, if neither
carrier occurs in its function; a failure is the same one. -/
theorem split_ofIds {ρ : ParamId → ParamId} (injective : Function.Injective ρ)
    (remembers : s.Remembers state) (remembers' : s.Remembers state') (f : Lambda) (carrier : Ty) :
    Outcomes (fun g g' => (∀ p ∈ g.params, p.id ∉ f.ids) →
        (∀ p ∈ g'.params, p.id ∉ (f.relabel (.ofIds ρ injective)).ids) →
        ∃ τ, ∃ injective' : Function.Injective τ, (∀ id ∈ f.ids, τ id = ρ id) ∧
          g' = g.relabel (.ofIds τ injective'))
      ((s.split f carrier).run.run state).1
      ((s.split (f.relabel (.ofIds ρ injective)) carrier).run.run state').1 := by
  obtain ⟨_, -, run, -⟩ := split_run remembers f carrier
  obtain ⟨_, -, run', -⟩ := split_run remembers' (f.relabel (.ofIds ρ injective)) carrier
  rw [run, run', planOf_relabel, Relabeling.mapError_ofIds]
  cases s.planOf f carrier with
  | error e => exact rfl
  | ok plan =>
    intro fresh fresh'
    have new : (s.nextCarrier state carrier).id ∉ f.ids := fresh _ (List.mem_singleton.mpr rfl)
    have new' : (s.nextCarrier state' carrier).id ∉ f.ids.map ρ := by
      have absent := fresh' _ (List.mem_singleton.mpr rfl)
      rw [Lambda.ids_relabel] at absent
      exact absent
    obtain ⟨τ, injective', agree, moved⟩ := Relabeling.exists_extend ρ injective new new'
    refine ⟨τ, injective', agree, ?_⟩
    have names : (Relabeling.ofIds τ injective').newName = (Relabeling.ofIds ρ injective).newName :=
      rfl
    have same := Lambda.relabel_congr names agree
    have carriers : (s.nextCarrier state carrier).relabel (.ofIds τ injective') =
        s.nextCarrier state' carrier :=
      congrArg (fun id => (⟨id, s.options.carrierParamName, carrier⟩ : Param)) moved
    rw [CarrierMap.relabel_splitLambda, same, carriers]

/-- Functions that differ in names alone have the same plan, or fail alike. -/
theorem planOf_unnamed (named : f.relabel .unnamed = f'.relabel .unnamed) (carrier : Ty) :
    (s.planOf f carrier).mapError (SplitError.relabel .unnamed) =
      (s.planOf f' carrier).mapError (SplitError.relabel .unnamed) := by
  rw [← planOf_relabel, named, planOf_relabel]

/-- **Members are chosen** without regard to names. -/
theorem carrierMap_unnamed (remembers : s.Remembers state)
    (named : f.relabel .unnamed = f'.relabel .unnamed) (carrier : Ty) :
    Outcomes (fun map map' => map.carrier = map'.carrier ∧ map.bindings = map'.bindings)
      (((s.carrierMap f carrier).run.run state).1.mapError (SplitError.relabel .unnamed))
      (((s.carrierMap f' carrier).run.run state).1.mapError (SplitError.relabel .unnamed)) := by
  obtain ⟨_, -, run, -⟩ := carrierMap_run remembers f carrier
  obtain ⟨_, -, run', -⟩ := carrierMap_run remembers f' carrier
  rw [run, run']
  refine outcomes_map (planOf_unnamed named carrier) fun plan => ⟨rfl, ?_⟩
  exact CarrierMap.bindings_congr (Lambda.declarations_unnamed named)

/-- **Split functions** differ in names alone if the functions do. -/
theorem split_unnamed (remembers : s.Remembers state)
    (named : f.relabel .unnamed = f'.relabel .unnamed) (carrier : Ty) :
    Outcomes (fun g g' => g.relabel .unnamed = g'.relabel .unnamed)
      (((s.split f carrier).run.run state).1.mapError (SplitError.relabel .unnamed))
      (((s.split f' carrier).run.run state).1.mapError (SplitError.relabel .unnamed)) := by
  obtain ⟨_, -, run, -⟩ := split_run remembers f carrier
  obtain ⟨_, -, run', -⟩ := split_run remembers f' carrier
  rw [run, run']
  refine outcomes_map (planOf_unnamed named carrier) fun plan => ?_
  rw [CarrierMap.relabel_splitLambda, CarrierMap.relabel_splitLambda, named]

/-! ## Ids and names -/

/-- **What other ids leave as it is.** -/
structure SameUnderIds (s : Splitter) (state state' : SplitState) {ρ : ParamId → ParamId}
    (injective : Function.Injective ρ) (f : Lambda) (carrier : Ty) : Prop where
  /-- Nothing tells the values of the two functions apart, and no failure differs. -/
  values : Value.Correspondence id (Value.SameUnder (.ofIds ρ injective) .same)
  /-- The two functions end alike. -/
  calls : ∀ (args : List Value) (depth m n : Nat), (∀ v ∈ args, v.ClosureFree) →
    Agree (Pairing.known m n) (Value.SameUnder (.ofIds ρ injective) .same)
      (f.call depth args) ((f.relabel (.ofIds ρ injective)).call depth args)
  /-- The split functions are the same up to the id of the carrier, where it is new, or both
  functions fail alike. -/
  split : Outcomes (fun g g' => (∀ p ∈ g.params, p.id ∉ f.ids) →
      (∀ p ∈ g'.params, p.id ∉ (f.relabel (.ofIds ρ injective)).ids) →
      ∃ τ, ∃ injective' : Function.Injective τ, (∀ id ∈ f.ids, τ id = ρ id) ∧
        g' = g.relabel (.ofIds τ injective'))
    ((s.split f carrier).run.run state).1
    ((s.split (f.relabel (.ofIds ρ injective)) carrier).run.run state').1

/-- **Functions that do the same up to names**, on all values that are there already. -/
def SameButNames (f f' : Lambda) : Prop :=
  ∀ (args : List Value) (depth m n : Nat), (∀ v ∈ args, v.Known m ∧ v.Known n) →
    Agree (Pairing.known m n) (Value.SameUnder .unnamed .unnamed)
      ((f.call depth args).reporting (Halt.relabel .unnamed))
      ((f'.call depth args).reporting (Halt.relabel .unnamed))

/-- **What other names leave as it is.** -/
structure SameUnderNames (s : Splitter) (state : SplitState) (f f' : Lambda) (carrier : Ty) :
    Prop where
  /-- Nothing tells the values of the two functions apart but the names in failures. -/
  values : Value.Correspondence (Halt.relabel .unnamed) (Value.SameUnder .unnamed .unnamed)
  /-- The two functions end alike. -/
  calls : SameButNames f f'
  /-- The same members are chosen, for the same ids. -/
  members : Outcomes (fun map map' => map.carrier = map'.carrier ∧ map.bindings = map'.bindings)
    (((s.carrierMap f carrier).run.run state).1.mapError (SplitError.relabel .unnamed))
    (((s.carrierMap f' carrier).run.run state).1.mapError (SplitError.relabel .unnamed))
  /-- The split functions end alike. -/
  split : Outcomes SameButNames
    (((s.split f carrier).run.run state).1.mapError (SplitError.relabel .unnamed))
    (((s.split f' carrier).run.run state).1.mapError (SplitError.relabel .unnamed))

/-- Functions that differ in names alone do the same. -/
theorem sameButNames (named : f.relabel .unnamed = f'.relabel .unnamed) : SameButNames f f' := by
  intro args depth m n known
  refine Lambda.call_sameUnder named (List.forall₂_same.mpr fun v hv => ?_) depth
  exact .refl fun i hi => ⟨rfl, (known v hv).1 i hi, (known v hv).2 i hi⟩

/-- **Parameters are known by id only.**  Other ids, different ones for different parameters,
change no value and no failure, and splitting gives what it gave, with the other ids.  Other names
change no value, no choice of members and no success; what failures say is the same up to the
names. -/
theorem known_by_id {ρ : ParamId → ParamId} (injective : Function.Injective ρ)
    (named : f.relabel .unnamed = f'.relabel .unnamed) (reached : s.Reached state)
    (reached' : s.Reached state') (carrier : Ty) :
    s.SameUnderIds state state' injective f carrier ∧ s.SameUnderNames state f f' carrier := by
  refine ⟨⟨?_, ?_, ?_⟩, ?_, ?_, ?_, ?_⟩
  · exact Value.sameUnder_correspondence Relabeling.halt_ofIds Relabeling.halt_ofIds
  · intro args depth m n free
    have agree := Lambda.call_sameUnder (w := Pairing.known m n)
      (Lambda.relabel_same (f.relabel (.ofIds ρ injective))).symm
      (List.forall₂_same.mpr fun v hv => .of_closureFree (free v hv)) depth
    rwa [Relabeling.halt_ofIds, Relabeling.same, Relabeling.halt_ofIds, EvalM.reporting_id,
      EvalM.reporting_id] at agree
  · exact split_ofIds injective reached.remembers reached'.remembers f carrier
  · exact Value.sameUnder_correspondence rfl rfl
  · exact sameButNames named
  · exact carrierMap_unnamed reached.remembers named carrier
  · exact (split_unnamed reached.remembers named carrier).imp fun _ _ same => sameButNames same

/-- The function `scaled` with other names, shown as `|a, a| |b| b + a * a`. -/
def scaledWithNames : Lambda :=
  let x : Param := ⟨⟨100⟩, "a", .int⟩
  let y : Param := ⟨⟨101⟩, "a", .int⟩
  let t : Param := ⟨⟨102⟩, "b", .int⟩
  ⟨[x, y], .lambda [t]
    (.binaryOf (.arith .add) (.param t) (.binaryOf (.arith .mul) (.param x) (.param y)))⟩

/-- A function with its first two ids exchanged, and with other names.  Split with the id 0 for the
carrier and with the id 5, it is one function up to the ids. -/
theorem known_by_id_scaled :
    points.SameUnderIds {} { ids := ⟨5⟩ } (Equiv.swap (⟨100⟩ : ParamId) ⟨101⟩).injective scaled
        (.con "Point") ∧
      points.SameUnderNames {} scaled scaledWithNames (.con "Point") ∧
      ((points.split scaled (.con "Point")).run.run {}).1 = .ok scaledOfPoint ∧
      ∃ τ, ∃ injective : Function.Injective τ,
        ((points.split (scaled.relabel (.ofIds _ (Equiv.swap ⟨100⟩ ⟨101⟩).injective))
          (.con "Point")).run.run { ids := ⟨5⟩ }).1 =
            .ok (scaledOfPoint.relabel (.ofIds τ injective)) := by
  have named : scaled.relabel .unnamed = scaledWithNames.relabel .unnamed := rfl
  obtain ⟨ids, names⟩ := known_by_id (s := points)
    (Equiv.swap (⟨100⟩ : ParamId) ⟨101⟩).injective named (.start {}) (.start ⟨5⟩) (.con "Point")
  -- the carriers have the ids 0 and 5, which the functions do not have
  have split : (∀ p ∈ scaledOfPoint.params, p.id ∉ scaled.ids) → _ := ids.split
  obtain ⟨τ, injective, -, same⟩ := split (by decide) (by decide)
  exact ⟨ids, names, rfl, τ, injective, congrArg Except.ok same⟩

end Splitter

end RowQuery
