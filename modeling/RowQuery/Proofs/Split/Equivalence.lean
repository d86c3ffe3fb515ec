import RowQuery.Proofs.Alike.Bisimulation
import RowQuery.Proofs.Split.Plans

/-!
# A split function does what the function does

Splitting replaces the parameters of a function by members of one carrier.  On a carrier whose
members are the arguments it does what the function does on the arguments.  The two calls run in
different environments and make closures over different bodies, so their results are compared by a
bisimulation.

* `CarrierMap.bindings_into` — what replaces the parameters is not captured if the carrier's id is
  not declared inside.
* `CarrierMap.exists_subst_param` — what replaces a reference is an access of the declared type.
* `CarrierMap.splitLambda_agree_call` — a split function beside the function.
* `CarrierMap.splitLambda_agree` — two split functions that differ in the carrier's id.
* **`Splitter.split_equivalent`** — the function and what splitting makes of it.
-/

namespace RowQuery

namespace CarrierMap

variable {carrier : Param} {params : List Param} {plan : MemberPlan}

/-- What a parameter is replaced by is a member of the carrier. -/
theorem eq_member_of_lookup {id : ParamId} {x : Expr}
    (h : (ofPlan carrier params plan).bindings.lookup id = some x) :
    ∃ name ty, x = .member (.param carrier) name ty := by
  have hx := mem_of_lookup h
  simp only [bindings, ofPlan, List.map_map, List.mem_map, Function.comp, Prod.mk.injEq] at hx
  obtain ⟨y, -, -, rfl⟩ := hx
  exact ⟨_, _, rfl⟩

/-- **The accesses are not captured** where the carrier's id is not declared. -/
theorem bindings_into {e : Expr} (fresh : carrier.id ∉ e.declared) :
    (ofPlan carrier params plan).bindings.Into e := by
  intro p _ x hx
  obtain ⟨name, ty, rfl⟩ := eq_member_of_lookup hx
  refine ⟨trivial, fun q hq => ?_⟩
  simp only [Expr.freeRefs, List.mem_singleton] at hq
  rwa [hq]

/-- The member that stands for a parameter. -/
def slotOf (params : List Param) (plan : MemberPlan) (id : ParamId) : Option MemberSlot :=
  ((params.map (·.id)).zip plan.slots).lookup id

/-- Every declared parameter has a member. -/
theorem exists_slotOf (hlen : plan.slots.length = params.length) {id : ParamId}
    (h : id ∈ params.map (·.id)) : ∃ slot, slotOf params plan id = some slot := by
  have keys : ((params.map (·.id)).zip plan.slots).map Prod.fst = params.map (·.id) :=
    List.map_fst_zip (by simp [hlen])
  rw [← keys] at h
  exact exists_lookup h

/-- The type that a list of parameters declares for an id. -/
def declaredTy (params : List Param) (id : ParamId) : Option Ty :=
  (params.map fun p => (p.id, p.ty)).lookup id

/-- **What stands for a parameter** is the access to its member, under the declared type. -/
theorem exists_access {id : ParamId} {slot : MemberSlot} (h : slotOf params plan id = some slot) :
    ∃ ty, declaredTy params id = some ty ∧ ∀ carrier,
      (ofPlan carrier params plan).bindings.lookup id =
        some (.member (.param carrier) slot.name ty) := by
  unfold slotOf at h
  unfold declaredTy bindings ofPlan
  generalize plan.slots = slots at h ⊢
  induction params generalizing slots with
  | nil => cases h
  | cons p ps ih =>
      cases slots with
      | nil => cases h
      | cons first rest =>
          simp only [List.map_cons, List.zip_cons_cons, List.lookup_cons] at h ⊢
          split at h
          case h_1 =>
            cases h
            exact ⟨p.ty, rfl, fun _ => rfl⟩
          case h_2 => exact ih rest h

/-- **What is substituted for a reference** is an access, under the declared type. -/
theorem exists_subst_param {f : Lambda} (check : f.checkParams = .ok ())
    (hlen : plan.slots.length = f.params.length) {p : Param} (hp : p ∈ f.body.freeRefs) :
    ∃ name ty, declaredTy f.params p.id = some ty ∧ ∀ carrier,
      (Expr.param p).subst (ofPlan carrier f.params plan).bindings =
        .member (.param carrier) name ty := by
  obtain ⟨slot, hslot⟩ := exists_slotOf hlen ((Lambda.checkParams_eq_ok_iff.mp check).2.2 p hp)
  obtain ⟨ty, hty, access⟩ := exists_access hslot
  refine ⟨slot.name, ty, hty, fun carrier => ?_⟩
  rw [Expr.subst, access carrier, Option.getD_some]

/-- **What stands for a parameter reads its member** of the row. -/
theorem read_param (carrier : Param) (row : Value) {p : Param} {slot : MemberSlot}
    (h : slotOf params plan p.id = some slot) :
    ((Expr.param p).subst (ofPlan carrier params plan).bindings).read
        (Env.bind [] [carrier] [row]) = row.member slot.name := by
  obtain ⟨ty, -, access⟩ := exists_access h
  rw [Expr.subst, access carrier, Option.getD_some, Expr.read, Expr.read]
  have found : (Env.bind [] [carrier] [row]).lookup carrier.id = some row := by
    simp [Env.bind]
  rw [found]
  rfl

/-- **The type of a split function** depends on the declared types alone. -/
theorem retTy_splitLambda {f g : Lambda} {planF planG : MemberPlan} (carrier carrier' : Param)
    (body : f.body = g.body) (checkF : f.checkParams = .ok ()) (checkG : g.checkParams = .ok ())
    (hlenF : planF.slots.length = f.params.length) (hlenG : planG.slots.length = g.params.length)
    (types : ∀ id, declaredTy f.params id = declaredTy g.params id) :
    ((ofPlan carrier f.params planF).splitLambda f).retTy =
      ((ofPlan carrier' g.params planG).splitLambda g).retTy := by
  unfold splitLambda Lambda.retTy
  rw [← body]
  refine Expr.ty_subst_congr fun p hp => ?_
  obtain ⟨name, ty, hty, access⟩ := exists_subst_param checkF hlenF hp
  obtain ⟨name', ty', hty', access'⟩ := exists_subst_param checkG hlenG (body ▸ hp)
  rw [types p.id, hty'] at hty
  rw [access carrier, access' carrier', Expr.ty, Expr.ty]
  exact (Option.some.inj hty).symm

/-! ## Calls -/

variable {f : Lambda} {w : Pairing} {row row' : Value}

/-- **Two split functions that differ in the carrier** behave alike on alike rows. -/
theorem splitLambda_agree {carrier carrier' : Param} (check : f.checkParams = .ok ())
    (hlen : plan.slots.length = f.params.length) (fresh : carrier.id ∉ f.body.declared)
    (fresh' : carrier'.id ∉ f.body.declared) (hrow : row.Alike w row') (depth : Nat) :
    Agree w Value.Alike (((ofPlan carrier f.params plan).splitLambda f).call depth [row])
      (((ofPlan carrier' f.params plan).splitLambda f).call depth [row']) := by
  obtain ⟨-, -, declared⟩ := Lambda.checkParams_eq_ok_iff.mp check
  have reads : f.body.ReadAlike w (ofPlan carrier f.params plan).bindings
      (ofPlan carrier' f.params plan).bindings (Env.bind [] [carrier] [row])
      (Env.bind [] [carrier'] [row']) := by
    refine ⟨bindings_into fresh, bindings_into fresh', fun p hp => ?_⟩
    obtain ⟨slot, hslot⟩ := exists_slotOf hlen (declared p hp)
    rw [read_param carrier row hslot, read_param carrier' row' hslot]
    exact hrow.member slot.name
  cases depth with
  | zero => exact Agree.throw _
  | succ depth => exact f.body.eval_agree (Lambda.apply_respects depth) reads

/-- **A split function beside the function**: on a row whose members are the arguments it behaves
as the function does on the arguments. -/
theorem splitLambda_agree_call (check : f.checkParams = .ok ())
    (hlen : plan.slots.length = f.params.length) (fresh : carrier.id ∉ f.body.declared)
    {args : List Value} (members : List.Forall₂
      (fun slot v => row.member slot.name = .ok v ∧ v.Alike w v) plan.slots args) (depth : Nat) :
    Agree w Value.Alike (f.call depth args)
      (((ofPlan carrier f.params plan).splitLambda f).call depth [row]) := by
  obtain ⟨-, distinct, declared⟩ := Lambda.checkParams_eq_ok_iff.mp check
  have count : f.params.length = args.length := hlen.symm.trans members.length_eq
  have keys : (((f.params.map (·.id)).zip args).map Prod.fst).Nodup := by
    rw [List.map_fst_zip (by simp [count])]
    exact distinct
  have reads : f.body.ReadAlike w [] (ofPlan carrier f.params plan).bindings
      (Env.bind [] f.params args) (Env.bind [] [carrier] [row]) := by
    refine ⟨Bindings.nil_into _, bindings_into fresh, fun p hp => ?_⟩
    obtain ⟨slot, hslot⟩ := exists_slotOf hlen (declared p hp)
    rw [read_param carrier row hslot]
    have found := lookup_rel
      (R := fun (slot : MemberSlot) v => row.member slot.name = .ok v ∧ v.Alike w v)
      (zip_rel members (f.params.map (·.id))) p.id
    rw [show ((f.params.map (·.id)).zip plan.slots).lookup p.id = some slot from hslot,
      lookup_perm (List.reverse_perm _).symm keys] at found
    simp only [Expr.subst, List.lookup_nil, Option.getD_none, Expr.read, Env.bind, List.append_nil]
    generalize ((f.params.map (·.id)).zip args).reverse.lookup p.id = arg at found ⊢
    cases found with
    | some h =>
        rw [h.1]
        exact h.2
  cases depth with
  | zero => exact Agree.throw _
  | succ depth =>
      have agree := f.body.eval_agree (Lambda.apply_respects depth) reads
      rw [Expr.subst_nil] at agree
      simp only [Lambda.call, Lambda.apply, if_pos count]
      exact agree

end CarrierMap

namespace Splitter

variable {s : Splitter} {state after : SplitState} {f g : Lambda} {carrier : Ty}

/-- What splitting made, if it made something. -/
theorem split_eq_ok (remembers : s.Remembers state)
    (split : (s.split f carrier).run.run state = (.ok g, after)) :
    f.checkParams = .ok () ∧ ∃ plan, s.computePlan carrier f.paramTys = .ok plan ∧
      plan.slots.length = f.params.length ∧
      g = (CarrierMap.ofPlan (s.nextCarrier state carrier) f.params plan).splitLambda f := by
  obtain ⟨_, -, run, -⟩ := split_run remembers f carrier
  rw [split] at run
  have outcome : Except.ok g = (s.planOf f carrier).map fun plan =>
      (CarrierMap.ofPlan (s.nextCarrier state carrier) f.params plan).splitLambda f :=
    congrArg Prod.fst run
  obtain ⟨plan, planned, rfl⟩ := map_eq_ok_iff.mp outcome.symm
  obtain ⟨check, computed, hlen⟩ := planOf_eq_ok planned
  exact ⟨check, plan, computed, hlen, rfl⟩

/-- **A split function does what the function does.**  On a record whose members at the chosen
slots are the arguments, the two calls end alike: both with results that a bisimulation relates, or
both with the same failure.  An absent carrier stands for absent arguments.  The carrier's id must
not be declared inside the function. -/
theorem split_equivalent (reached : s.Reached state)
    (split : (s.split f carrier).run.run state = (.ok g, after))
    (fresh : ∀ p ∈ g.params, p.id ∉ f.body.declared) :
    ∃ plan, ((s.memberPlan carrier f.paramTys).run.run state).1 = .ok plan ∧
      ∃ R, Value.Bisimulation R ∧
        (∀ (row : Value) (args : List Value) (depth m n : Nat),
          List.Forall₂ (fun slot v => row.field? slot.name = some v) plan.slots args →
          row.Known m → row.Known n →
          Agree (Pairing.known m n) R (f.call depth args) (g.call depth [row])) ∧
        ∀ depth m n : Nat, Agree (Pairing.known m n) R
          (f.call depth (List.replicate f.arity .null)) (g.call depth [.null]) := by
  obtain ⟨check, plan, computed, hlen, rfl⟩ := split_eq_ok reached.remembers split
  have fresh : (s.nextCarrier state carrier).id ∉ f.body.declared :=
    fresh _ (List.mem_singleton.mpr rfl)
  refine ⟨plan, ?_, Value.Alike, Value.Alike.bisimulation, ?_, ?_⟩
  · obtain ⟨cache, -, run⟩ := memberPlan_run reached.remembers carrier f.paramTys
    rw [run, computed]
  · intro row args depth m n members hm hn
    refine CarrierMap.splitLambda_agree_call check hlen fresh (members.imp fun slot v h => ?_) depth
    have member : row.member slot.name = .ok v := Value.member_of_field? h
    exact ⟨member, .known (hm.member member) (hn.member member)⟩
  · intro depth m n
    refine CarrierMap.splitLambda_agree_call check hlen fresh ?_ depth
    rw [Lambda.arity, ← hlen, ← List.map_const', List.forall₂_map_right_iff, List.forall₂_same]
    exact fun _ _ => ⟨rfl, .null⟩

/-- A schema with points in the plane. -/
def points : Splitter where
  schema := ⟨[{ name := "Point", fields := [⟨"x", .int⟩, ⟨"y", .int⟩] }]⟩

/-- `|x, y| |t| t + x * y`, a function that makes a closure over both parameters. -/
def scaled : Lambda :=
  let x : Param := ⟨⟨100⟩, "x", .int⟩
  let y : Param := ⟨⟨101⟩, "y", .int⟩
  let t : Param := ⟨⟨102⟩, "t", .int⟩
  ⟨[x, y], .lambda [t]
    (.binaryOf (.arith .add) (.param t) (.binaryOf (.arith .mul) (.param x) (.param y)))⟩

/-- `|row| |t| t + row.x * row.y`, the same function of a point. -/
def scaledOfPoint : Lambda :=
  let row : Param := ⟨⟨0⟩, "row", .con "Point"⟩
  let x : Expr := .member (.param row) "x" .int
  let y : Expr := .member (.param row) "y" .int
  let t : Param := ⟨⟨102⟩, "t", .int⟩
  ⟨[row], .lambda [t] (.binaryOf (.arith .add) (.param t) (.binaryOf (.arith .mul) x y))⟩

/-- Split over points, the function makes a closure that behaves as the function's own does. -/
theorem split_equivalent_points :
    ∃ plan, ((points.memberPlan (.con "Point") scaled.paramTys).run.run {}).1 = .ok plan ∧
      ∃ R, Value.Bisimulation R ∧
        (∀ (row : Value) (args : List Value) (depth m n : Nat),
          List.Forall₂ (fun slot v => row.field? slot.name = some v) plan.slots args →
          row.Known m → row.Known n →
          Agree (Pairing.known m n) R (scaled.call depth args) (scaledOfPoint.call depth [row])) ∧
        ∀ depth m n : Nat, Agree (Pairing.known m n) R
          (scaled.call depth (List.replicate scaled.arity .null))
          (scaledOfPoint.call depth [.null]) :=
  split_equivalent (.start {}) rfl (by decide)

end Splitter

end RowQuery
