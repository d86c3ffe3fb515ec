import RowQuery.Proofs.Split.CarrierMaps
import RowQuery.Proofs.Split.Hygiene
import RowQuery.Proofs.Substitution.FreeParams

/-!
# What a split function was

Splitting puts an access to the carrier where a function refers to one of its parameters, and keeps
everything else.  Each parameter has a member of its own, so the accesses can be turned back into the
references that they stand for.

* `Expr.replace` — every outermost part of an expression that a function replaces.
* `Expr.replace_subst` — a substitution undone, if its images are recognised and nothing else is.
* `CarrierMap.paramOf?` — the parameter that a map binds to a member.
* `CarrierMap.restore` — accesses to the carrier turned back into references.
* `CarrierMap.Covers.restore_splitLambda` — the body of a split function restored.
* `Lambda.RefersAsDeclared` — functions that refer to their own parameters as they declare them.
* `Splitter.exists_restore_eq` — a split undone.
* **`Splitter.split_restores`** — no function is lost in splitting, and no two become one.
-/

namespace RowQuery

namespace Expr

/-! ## Replacement -/

mutual

/-- **Replacing parts of an expression.**  A part for which `f` has another expression is replaced by
it, and not looked into. -/
def replace (f : Expr → Option Expr) : Expr → Expr
  | .param p => (f (.param p)).getD (.param p)
  | .lit l => (f (.lit l)).getD (.lit l)
  | .member object name ty =>
      (f (.member object name ty)).getD (.member (object.replace f) name ty)
  | .unary op operand ty => (f (.unary op operand ty)).getD (.unary op (operand.replace f) ty)
  | .binary op lhs rhs ty =>
      (f (.binary op lhs rhs ty)).getD (.binary op (lhs.replace f) (rhs.replace f) ty)
  | .call func args ty => (f (.call func args ty)).getD (.call func (replaceList f args) ty)
  | .ite cond thenBranch elseBranch ty =>
      (f (.ite cond thenBranch elseBranch ty)).getD
        (.ite (cond.replace f) (thenBranch.replace f) (elseBranch.replace f) ty)
  | .construct ty fields =>
      (f (.construct ty fields)).getD (.construct ty (replaceFields f fields))
  | .tuple items => (f (.tuple items)).getD (.tuple (replaceList f items))
  | .list elemTy items => (f (.list elemTy items)).getD (.list elemTy (replaceList f items))
  | .lambda params body => (f (.lambda params body)).getD (.lambda params (body.replace f))
  | .invoke callee args ty =>
      (f (.invoke callee args ty)).getD (.invoke (callee.replace f) (replaceList f args) ty)

/-- `Expr.replace` on each member of a list. -/
def replaceList (f : Expr → Option Expr) : List Expr → List Expr
  | [] => []
  | e :: es => e.replace f :: replaceList f es

/-- `Expr.replace` on the value of each field. -/
def replaceFields (f : Expr → Option Expr) : List (String × Expr) → List (String × Expr)
  | [] => []
  | (name, e) :: fs => (name, e.replace f) :: replaceFields f fs

end

@[simp]
theorem replaceList_eq_map (f : Expr → Option Expr) (es : List Expr) :
    replaceList f es = es.map (replace f) := by
  induction es with
  | nil => rfl
  | cons e es ih => simp [replaceList, ih]

@[simp]
theorem replaceFields_eq_map (f : Expr → Option Expr) (fs : List (String × Expr)) :
    replaceFields f fs = fs.map fun x => (x.1, x.2.replace f) := by
  induction fs with
  | nil => rfl
  | cons x fs ih => simp [replaceFields, ih]

/-- A part that is not replaced is rebuilt from its children. -/
theorem replace_eq (f : Expr → Option Expr) (e : Expr) :
    e.replace f = (f e).getD (e.mapChildren (replace f)) := by
  cases e <;> simp [replace, Expr.mapChildren]

/-! ## Accesses -/

/-- The member that an access to a parameter asks for. -/
def accessed? (id : ParamId) : Expr → Option String
  | .member (.param p) name _ => if p.id = id then some name else none
  | _ => none

/-- **No access is new** after a substitution of accesses, except for those that stand for a whole
reference. -/
theorem accessed?_subst_eq_none {id : ParamId} {b : Bindings} {e : Expr} (compound : e.Compound)
    (unreferenced : ∀ r ∈ e.refs, r.param.id ≠ id)
    (accesses : ∀ p ∈ e.freeRefs, ∀ x, b.lookup p.id = some x → (x.accessed? id).isSome) :
    (e.subst b).accessed? id = none := by
  cases e with
  | member object name ty =>
      cases object with
      | param p =>
          rw [subst, subst]
          cases found : b.lookup p.id with
          | none => exact if_neg (unreferenced ⟨p, []⟩ (List.mem_singleton.mpr rfl))
          | some x =>
              have access := accesses p (List.mem_singleton.mpr rfl) x found
              cases x with
              | param q => cases access
              | _ => rfl
      | _ => rfl
  | _ => first | rfl | cases compound

/-- **A substitution undone.**  Only accesses to a parameter that an expression does not refer to are
replaced, and of these each that was put in by the reference that it stands for. -/
theorem replace_subst {f : Expr → Option Expr} (id : ParamId) {b : Bindings} {e : Expr}
    (accesses : ∀ x y, f x = some y → (x.accessed? id).isSome)
    (unreferenced : ∀ r ∈ e.refs, r.param.id ≠ id)
    (images : ∀ p ∈ e.freeRefs, ∀ x, b.lookup p.id = some x → f x = some (param p)) :
    (e.subst b).replace f = e := by
  have kept : ∀ {x : Expr}, x.accessed? id = none → f x = none := by
    intro x none
    rw [Option.eq_none_iff_forall_ne_some]
    intro y replaced
    have access := accesses x y replaced
    rw [none] at access
    cases access
  induction e using inductCompound generalizing b with
  | param p =>
      rw [subst]
      cases found : b.lookup p.id with
      | none => rw [Option.getD_none, replace_eq, kept rfl]; rfl
      | some x =>
          rw [Option.getD_some, replace_eq, images p (List.mem_singleton.mpr rfl) x found]
          rfl
  | lit l => rw [subst, replace_eq, kept rfl]; rfl
  | compound e h ih =>
      have none := kept <| accessed?_subst_eq_none h unreferenced fun p hp x found =>
        accesses x _ (images p hp x found)
      rw [replace_eq, none, Option.getD_none, h.subst_eq, mapChildren_mapChildren]
      conv_rhs => rw [← mapChildren_id e]
      refine mapChildren_congr fun child hchild => ih child hchild (fun r hr => ?_) fun p hp => ?_
      · refine unreferenced r ?_
        rw [h.refs_eq]
        exact List.mem_flatMap.mpr ⟨child, hchild, hr⟩
      · exact images p (h.freeRefs_subset hchild hp)
  | lambda params body ih =>
      rw [subst, replace_eq, kept rfl, Option.getD_none, Expr.mapChildren, ih]
      · exact fun r hr => unreferenced (r.below params) (List.mem_map_of_mem hr)
      · intro p hp x found
        by_cases declared : p.id ∈ params.map (·.id)
        · rw [b.lookup_without_of_mem declared] at found
          cases found
        · rw [b.lookup_without_of_not_mem declared] at found
          exact images p (mem_freeRefs_lambda.mpr ⟨hp, declared⟩) x found

end Expr

/-! ## Maps -/

namespace CarrierMap

/-- **The parameter that a map binds to a member** of the carrier. -/
def paramOf? (map : CarrierMap) (name : String) : Option Param :=
  (map.entries.find? fun (_, access) => access.accessed? map.carrier.id == some name).map (·.1)

/-- **Accesses to the carrier turned back into references** to the parameters that the map binds to
their members, whatever nested functions they stand in. -/
def restore (map : CarrierMap) : Expr → Expr :=
  Expr.replace fun x => ((x.accessed? map.carrier.id).bind map.paramOf?).map .param

/-- Where the members are different, the first access to a member is the only one. -/
private theorem find?_access {carrier : Param} {entries : List (Param × Expr)} {names : List String}
    (accesses : List.Forall₂ (fun x name => x.2 = .member (.param carrier) name x.1.ty)
      entries names) (distinct : names.Nodup) {x : Param × Expr} (hx : x ∈ entries) :
    ∃ name ∈ names, x.2.accessed? carrier.id = some name ∧
      entries.find? (fun (_, access) => access.accessed? carrier.id == some name) = some x := by
  have accessed : ∀ {y : Param × Expr} {name : String},
      y.2 = .member (.param carrier) name y.1.ty → y.2.accessed? carrier.id = some name := by
    intro y name access
    rw [access]
    exact if_pos rfl
  induction accesses with
  | nil => cases hx
  | @cons y name entries names first rest ih =>
      obtain ⟨new, distinct⟩ := List.nodup_cons.mp distinct
      rcases List.mem_cons.mp hx with rfl | hx
      · exact ⟨name, List.mem_cons_self, accessed first,
          List.find?_cons_of_pos (by simp [accessed first])⟩
      · obtain ⟨other, mem, access, found⟩ := ih distinct hx
        have different : name ≠ other := fun same => new (same ▸ mem)
        refine ⟨other, List.mem_cons_of_mem name mem, access, ?_⟩
        rw [List.find?_cons_of_neg (by simp [accessed first, different]), found]

/-- **Each access is turned back** into a reference to the parameter that it stands for. -/
theorem Covers.restore_access {map : CarrierMap} {carrier : Param} {members : List FieldDef}
    {f : Lambda} (covers : map.Covers carrier members f) {p : Param} (hp : p ∈ f.params)
    {access : Expr} (found : map.bindings.lookup p.id = some access) :
    ((access.accessed? map.carrier.id).bind map.paramOf?).map Expr.param = some (Expr.param p) := by
  obtain ⟨names, distinct, -, accesses⟩ := covers.accesses
  rw [← covers.params] at hp
  obtain ⟨x, hx, rfl⟩ := List.mem_map.mp hp
  rw [(covers.found x hx).2, Option.some.injEq] at found
  obtain ⟨name, -, member, first⟩ := find?_access accesses distinct hx
  rw [covers.carrier_eq, ← found, member, Option.bind_some, paramOf?, covers.carrier_eq, first]
  rfl

/-- **The body of a split function restored** is the body of the function, if all references to the
parameters of the function carry the declared parameter, and the carrier is new. -/
theorem Covers.restore_splitLambda {map : CarrierMap} {carrier : Param} {members : List FieldDef}
    {f : Lambda} (covers : map.Covers carrier members f) (declared : ∀ p ∈ f.body.freeRefs, p ∈ f.params)
    (fresh : carrier.id ∉ f.ids) : map.restore (map.splitLambda f).body = f.body := by
  refine Expr.replace_subst map.carrier.id (fun x y replaced => ?_) (fun r hr same => ?_)
    fun p hp x found => covers.restore_access (declared p hp) found
  · cases access : x.accessed? map.carrier.id with
    | none =>
        rw [access] at replaced
        cases replaced
    | some name => rfl
  · rw [covers.carrier_eq] at same
    refine fresh (List.mem_append_right _ (List.mem_append_right _ ?_))
    exact List.mem_map.mpr ⟨r, hr, same⟩

/-- **A split function that refers to nothing** has the body of the function. -/
theorem splitLambda_body_eq {carrier : Param} {f : Lambda} {plan : MemberPlan}
    (check : f.checkParams = .ok ()) (hlen : plan.slots.length = f.params.length)
    (fresh : carrier.id ∉ f.ids)
    (closed : ((ofPlan carrier f.params plan).splitLambda f).body.freeRefs = []) :
    ((ofPlan carrier f.params plan).splitLambda f).body = f.body := by
  have new : carrier.id ∉ f.body.declared := fun old =>
    fresh (List.mem_append_right _ (List.mem_append_left _ old))
  rw [freeRefs_splitLambda_eq_nil_iff check hlen new] at closed
  refine Expr.subst_eq_self fun p hp => ?_
  rw [closed] at hp
  cases hp

end CarrierMap

/-! ## Split functions -/

/-- **A function refers to its own parameters as it declares them**: references under the same id
carry the declared name and type. -/
def Lambda.RefersAsDeclared (f : Lambda) : Prop :=
  ∀ p ∈ f.body.freeRefs, ∀ q ∈ f.params, q.id = p.id → p = q

instance (f : Lambda) : Decidable f.RefersAsDeclared :=
  inferInstanceAs (Decidable (∀ p ∈ f.body.freeRefs, ∀ q ∈ f.params, q.id = p.id → p = q))

namespace Splitter

variable {s : Splitter} {definitions : List StructDef} {f g : Lambda} {carrier : Ty}
  {state after : SplitState}

/-- **A split undone**: the map that it followed turns the body of the split function back. -/
theorem exists_restore_eq (registered : s.schema = ((Schema.registerEach definitions).run {}).2)
    (reached : s.Reached state) (split : (s.split f carrier).run.run state = (.ok g, after))
    (own : f.RefersAsDeclared) (fresh : ∀ p ∈ g.params, p.id ∉ f.ids) :
    ∃ plan, s.planOf f carrier = .ok plan ∧
      let map := CarrierMap.ofPlan (s.nextCarrier state carrier) f.params plan
      ((s.carrierMap f carrier).run.run state).1 = .ok map ∧ map.splitLambda f = g ∧
        map.restore g.body = f.body := by
  obtain ⟨check, plan, computed, -, rfl⟩ := split_eq_ok reached.remembers split
  have planned : s.planOf f carrier = .ok plan := by
    rw [planOf, check]
    exact computed
  have made : ((s.carrierMap f carrier).run.run state).1 =
      .ok (.ofPlan (s.nextCarrier state carrier) f.params plan) := by
    obtain ⟨_, -, run, -⟩ := carrierMap_run reached.remembers f carrier
    rw [run, planned]
    rfl
  obtain ⟨members, -, covers⟩ := (carrierMap_outcome registered reached f carrier).2 _ made
  refine ⟨plan, planned, made, rfl, covers.restore_splitLambda (fun p hp => ?_) ?_⟩
  · obtain ⟨q, hq, same⟩ :=
      List.mem_map.mp ((Lambda.checkParams_eq_ok_iff.mp check).2.2 p hp)
    rw [own p hp q hq same]
    exact hq
  · exact fresh _ List.mem_cons_self

/-- **Nothing is lost in splitting.**  In a schema of registered definitions, and with a carrier whose
id does not occur in the function, the accesses to the carrier turned back into references are the
body of the function, if the references to its parameters carry the declared parameters.  So two such
functions with the same parameters that are split to the same body are the same, whatever was split
in between and over whatever carriers they are split. -/
theorem split_restores (registered : s.schema = ((Schema.registerEach definitions).run {}).2)
    (reached : s.Reached state) (split : (s.split f carrier).run.run state = (.ok g, after))
    (own : f.RefersAsDeclared) (fresh : ∀ p ∈ g.params, p.id ∉ f.ids) :
    (∃ map, ((s.carrierMap f carrier).run.run state).1 = .ok map ∧ map.splitLambda f = g ∧
      map.restore g.body = f.body) ∧
    ∀ {f' g' : Lambda} {carrier' : Ty} {state' after' : SplitState}, s.Reached state' →
      (s.split f' carrier').run.run state' = (.ok g', after') → f'.RefersAsDeclared →
      (∀ p ∈ g'.params, p.id ∉ f'.ids) → f'.params = f.params → g'.body = g.body →
      f'.body = f.body := by
  obtain ⟨plan, planned, made, rfl, restored⟩ :=
    exists_restore_eq registered reached split own fresh
  refine ⟨⟨_, made, rfl, restored⟩, ?_⟩
  intro f' g' carrier' state' after' reached' split' own' fresh' params same
  obtain ⟨plan', planned', -, rfl, restored'⟩ :=
    exists_restore_eq registered reached' split' own' fresh'
  obtain ⟨check, computed, hlen⟩ := planOf_eq_ok planned
  obtain ⟨check', computed', hlen'⟩ := planOf_eq_ok planned'
  by_cases one : s.nextCarrier state' carrier' = s.nextCarrier state carrier
  case pos =>
    -- one carrier and the same parameters have one plan, so both followed one map
    have types : carrier' = carrier := congrArg Param.ty one
    rw [Lambda.paramTys, params, types] at computed'
    rw [Lambda.paramTys, computed', Except.ok.injEq] at computed
    rw [← restored', ← restored, same, params, one, computed]
  case neg =>
    -- the one body refers to neither carrier, so it is the body of both functions
    have closed : ((CarrierMap.ofPlan (s.nextCarrier state carrier) f.params plan).splitLambda
        f).body.freeRefs = [] := by
      refine List.eq_nil_iff_forall_not_mem.mpr fun p hp => one ?_
      rw [← CarrierMap.eq_carrier_of_mem_freeRefs _ check hlen p hp]
      rw [← same] at hp
      exact (CarrierMap.eq_carrier_of_mem_freeRefs _ check' hlen' p hp).symm
    have new : (s.nextCarrier state carrier).id ∉ f.ids := fresh _ List.mem_cons_self
    have new' : (s.nextCarrier state' carrier').id ∉ f'.ids := fresh' _ List.mem_cons_self
    have kept := CarrierMap.splitLambda_body_eq check hlen new closed
    have kept' := CarrierMap.splitLambda_body_eq check' hlen' new' (same ▸ closed)
    exact kept'.symm.trans (same.trans kept)

/-- `|x, y| sumBelow(x, y)` over points: the map turns the member `x` of the point back into `x`, and
leaves the `x` of the nested function alone.  With `x` and `y` exchanged the body is a different one,
and so it is after splitting. -/
theorem split_restores_sumBelow :
    let x : Param := ⟨⟨100⟩, "x", .int⟩
    let y : Param := ⟨⟨101⟩, "y", .int⟩
    let row : Param := ⟨⟨0⟩, "row", .con "Point"⟩
    let f : Lambda := ⟨[x, y], Expr.sumBelow (.param x) (.param y)⟩
    let f' : Lambda := ⟨[x, y], Expr.sumBelow (.param y) (.param x)⟩
    let g : Lambda :=
      ⟨[row], Expr.sumBelow (.member (.param row) "x" .int) (.member (.param row) "y" .int)⟩
    (∃ map, ((points.carrierMap f (.con "Point")).run.run {}).1 = .ok map ∧
      map.splitLambda f = g ∧ map.restore g.body = f.body) ∧
    ∃ g' after', (points.split f' (.con "Point")).run.run {} = (.ok g', after') ∧
      g'.body ≠ g.body := by
  intro x y row f f' g
  have registered : points.schema = ((Schema.registerEach points.schema.structs).run {}).2 := rfl
  have own : f.RefersAsDeclared := by decide
  have own' : f'.RefersAsDeclared := by decide
  have split : (points.split f (.con "Point")).run.run {} = (.ok g, _) := rfl
  obtain ⟨restored, apart⟩ := split_restores registered (.start {}) split own (by decide)
  refine ⟨restored, _, _, rfl, fun same => ?_⟩
  have split' : (points.split f' (.con "Point")).run.run {} = (.ok _, _) := rfl
  have one : f'.body = f.body := apart (.start {}) split' own' (by decide) rfl same
  exact absurd one (by decide)

end Splitter

end RowQuery
