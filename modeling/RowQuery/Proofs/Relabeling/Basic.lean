import Mathlib.Logic.Function.Basic
import RowQuery.Proofs.Alike.Value

/-!
# Other ids and other names

A parameter is known by its id and shown by its name.  A relabeling gives every parameter another
id, different ones to different ids, and another name; it does so at declarations and references
alike, also in the functions that values hold.

* `Relabeling` — another id for each id, and another name for each name.
* `Expr.relabel`, `Lambda.relabel`, `Value.relabel` — expressions, functions and values with other
  ids and names.
* `Value.text_relabel`, `Value.same_relabel` — values are shown and compared as before.
* `Value.relabel_of_closureFree` — a value without closures is left as it is.
* `Env.lookup_relabel` — what was bound to an id is bound to its other id.
-/

namespace RowQuery

/-- **Other ids and other names.**  Different ids stay different; names may fall together. -/
structure Relabeling where
  newId : ParamId → ParamId
  newName : String → String
  injective : Function.Injective newId

/-! ## Relabeled trees and values -/

section

variable (r : Relabeling)

/-- A parameter with its other id and name. -/
def Param.relabel (p : Param) : Param := ⟨r.newId p.id, r.newName p.name, p.ty⟩

namespace Expr

mutual

/-- **An expression with other ids and names**, at declarations and references. -/
def relabel : Expr → Expr
  | .param p => .param (p.relabel r)
  | .lit l => .lit l
  | .member object name ty => .member object.relabel name ty
  | .unary op operand ty => .unary op operand.relabel ty
  | .binary op lhs rhs ty => .binary op lhs.relabel rhs.relabel ty
  | .call func args ty => .call func (relabelList args) ty
  | .ite cond thenBranch elseBranch ty =>
      .ite cond.relabel thenBranch.relabel elseBranch.relabel ty
  | .construct ty fields => .construct ty (relabelFields fields)
  | .tuple items => .tuple (relabelList items)
  | .list elemTy items => .list elemTy (relabelList items)
  | .lambda params body => .lambda (params.map (Param.relabel r)) body.relabel
  | .invoke callee args ty => .invoke callee.relabel (relabelList args) ty

/-- `Expr.relabel` on each member of a list. -/
def relabelList : List Expr → List Expr
  | [] => []
  | e :: es => e.relabel :: relabelList es

/-- `Expr.relabel` on the value of each field. -/
def relabelFields : List (String × Expr) → List (String × Expr)
  | [] => []
  | (name, e) :: fs => (name, e.relabel) :: relabelFields fs

end

@[simp]
theorem relabelList_eq_map (es : List Expr) : relabelList r es = es.map (relabel r) := by
  induction es with
  | nil => rfl
  | cons e es ih => simp [relabelList, ih]

@[simp]
theorem relabelFields_eq_map (fs : List (String × Expr)) :
    relabelFields r fs = fs.map fun f => (f.1, f.2.relabel r) := by
  induction fs with
  | nil => rfl
  | cons f fs ih => simp [relabelFields, ih]

end Expr

/-- A function with other ids and names. -/
def Lambda.relabel (f : Lambda) : Lambda := ⟨f.params.map (Param.relabel r), f.body.relabel r⟩

namespace Value

mutual

/-- **A value with other ids and names** in the functions that it holds.  The closures keep their
numbers. -/
def relabel : Value → Value
  | .tuple items => .tuple (relabelList items)
  | .list items => .list (relabelList items)
  | .record name fields => .record name (relabelFields fields)
  | .closure id f captured => .closure id (f.relabel r) (relabelEnv captured)
  | v => v

/-- `Value.relabel` on each member of a list. -/
def relabelList : List Value → List Value
  | [] => []
  | v :: vs => v.relabel :: relabelList vs

/-- `Value.relabel` on the value of each field. -/
def relabelFields : List (String × Value) → List (String × Value)
  | [] => []
  | (name, v) :: fs => (name, v.relabel) :: relabelFields fs

/-- `Value.relabel` on captured values, under their other ids. -/
def relabelEnv : Env → Env
  | [] => []
  | (id, v) :: env => (r.newId id, v.relabel) :: relabelEnv env

end

@[simp]
theorem relabelList_eq_map (vs : List Value) : relabelList r vs = vs.map (relabel r) := by
  induction vs with
  | nil => rfl
  | cons v vs ih => simp [relabelList, ih]

@[simp]
theorem relabelFields_eq_map (fs : List (String × Value)) :
    relabelFields r fs = fs.map fun f => (f.1, f.2.relabel r) := by
  induction fs with
  | nil => rfl
  | cons f fs ih => simp [relabelFields, ih]

end Value

/-- An environment with other ids and names. -/
def Env.relabel (env : Env) : Env := env.map fun x => (r.newId x.1, x.2.relabel r)

@[simp]
theorem Value.relabelEnv_eq_relabel (env : Env) : relabelEnv r env = env.relabel r := by
  induction env with
  | nil => rfl
  | cons x env ih => simp [relabelEnv, ih, Env.relabel]

end

variable {r : Relabeling}

@[simp]
theorem Param.id_relabel (p : Param) : (p.relabel r).id = r.newId p.id := rfl

@[simp]
theorem Param.ty_relabel (p : Param) : (p.relabel r).ty = p.ty := rfl

/-- The ids of relabeled parameters are the other ids. -/
theorem Param.map_id_relabel (params : List Param) :
    (params.map (relabel r)).map (·.id) = (params.map (·.id)).map r.newId := by
  simp

/-- A declared id stays declared, and no other id becomes so. -/
theorem Param.id_mem_relabel {params : List Param} {id : ParamId} :
    r.newId id ∈ (params.map (relabel r)).map (·.id) ↔ id ∈ params.map (·.id) := by
  rw [map_id_relabel, List.mem_map_of_injective r.injective]

@[simp]
theorem Lambda.arity_relabel (f : Lambda) : (f.relabel r).arity = f.arity := by
  simp [arity, relabel]

@[simp]
theorem Lambda.paramTys_relabel (f : Lambda) : (f.relabel r).paramTys = f.paramTys := by
  simp [paramTys, relabel]

/-! ## Look-ups -/

/-- **What was bound to an id is bound to its other id.** -/
theorem Env.lookup_relabel (env : Env) (id : ParamId) :
    (env.relabel r).lookup (r.newId id) = (env.lookup id).map (Value.relabel r) :=
  lookup_map_injective r.injective (Value.relabel r) env id

/-- Binding arguments and relabeling can be exchanged. -/
theorem Env.relabel_bind (env : Env) (params : List Param) (args : List Value) :
    (env.bind params args).relabel r =
      (env.relabel r).bind (params.map (Param.relabel r)) (args.map (Value.relabel r)) := by
  rw [bind, bind, Param.map_id_relabel, List.zip_map, relabel, relabel, List.map_append,
    List.map_reverse]
  rfl

/-! ## Values -/

namespace Value

@[simp]
theorem relabel_ofLiteral (l : Literal) : (ofLiteral l).relabel r = ofLiteral l := by
  cases l <;> rfl

/-- **Values are shown as before**: the text of a closure says no more than its arity. -/
@[simp]
theorem text_relabel (v : Value) : (v.relabel r).text = v.text := by
  induction v with
  | tuple items ih =>
    simp only [relabel, text, relabelList_eq_map, texts_eq_map, List.map_map]
    exact congrArg _ (List.map_congr_left ih)
  | list items ih =>
    simp only [relabel, text, relabelList_eq_map, texts_eq_map, List.map_map]
    exact congrArg _ (List.map_congr_left ih)
  | record name fields ih =>
    simp only [relabel, text, relabelFields_eq_map, fieldTexts_eq_map, List.map_map]
    refine congrArg _ (List.map_congr_left fun f hf => ?_)
    simp [ih f hf]
  | closure id f captured => simp [relabel, text]
  | _ => rfl

@[simp]
theorem render_relabel (v : Value) : (v.relabel r).render = v.render := by
  cases v with
  | null => rfl
  | str s => rfl
  | _ => exact text_relabel _

mutual

/-- **Values are compared as before**: closures by number. -/
theorem same_relabel : ∀ a b : Value, (a.relabel r).same (b.relabel r) = a.same b
  | .tuple as, b => by cases b <;> simp [relabel, same, sameList_relabel as]
  | .list as, b => by cases b <;> simp [relabel, same, sameList_relabel as]
  | .record _ fs, b => by cases b <;> simp [relabel, same, sameFields_relabel fs]
  | .closure _ _ _, b => by cases b <;> simp [relabel, same]
  | .unit, b => by cases b <;> simp [relabel, same]
  | .null, b => by cases b <;> simp [relabel, same]
  | .bool _, b => by cases b <;> simp [relabel, same]
  | .int _, b => by cases b <;> simp [relabel, same]
  | .str _, b => by cases b <;> simp [relabel, same]

/-- Lists of values are compared as before. -/
theorem sameList_relabel : ∀ as bs : List Value,
    sameList (as.map (relabel r)) (bs.map (relabel r)) = sameList as bs
  | [], bs => by cases bs <;> simp [sameList]
  | a :: as, bs => by cases bs <;> simp [sameList, same_relabel a, sameList_relabel as]

/-- Fields are compared as before. -/
theorem sameFields_relabel : ∀ fs gs : List (String × Value),
    sameFields (fs.map fun f => (f.1, f.2.relabel r)) (gs.map fun f => (f.1, f.2.relabel r)) =
      sameFields fs gs
  | [], gs => by cases gs <;> simp [sameFields]
  | (_, a) :: fs, gs => by cases gs <;> simp [sameFields, same_relabel a, sameFields_relabel fs]

end

/-- The closures in a value keep their numbers. -/
@[simp]
theorem closureIds_relabel (v : Value) : (v.relabel r).closureIds = v.closureIds := by
  induction v with
  | tuple items ih => simp [relabel, closureIds, List.flatMap_map, List.flatMap_congr ih]
  | list items ih => simp [relabel, closureIds, List.flatMap_map, List.flatMap_congr ih]
  | record name fields ih => simp [relabel, closureIds, List.flatMap_map, List.flatMap_congr ih]
  | closure id f captured ih =>
    simp [relabel, closureIds, Env.relabel, List.flatMap_map, List.flatMap_congr ih]
  | _ => rfl

/-- **A value without closures is left as it is.** -/
theorem relabel_of_closureFree {v : Value} (free : v.ClosureFree) : v.relabel r = v := by
  induction v with
  | tuple items ih =>
    rw [closureFree_tuple] at free
    have same : ∀ v ∈ items, v.relabel r = id v := fun v hv => ih v hv (free v hv)
    simp [relabel, List.map_congr_left same]
  | list items ih =>
    rw [closureFree_list] at free
    have same : ∀ v ∈ items, v.relabel r = id v := fun v hv => ih v hv (free v hv)
    simp [relabel, List.map_congr_left same]
  | record name fields ih =>
    rw [closureFree_record] at free
    have same : ∀ f ∈ fields, (f.1, f.2.relabel r) = id f := by
      intro f hf
      rw [ih f hf (free f hf)]
      rfl
    simp [relabel, List.map_congr_left same]
  | closure id f captured => cases free
  | _ => rfl

end Value

end RowQuery
