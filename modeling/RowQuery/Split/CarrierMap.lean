import RowQuery.Distinct
import RowQuery.Expr.FreeParams
import RowQuery.Expr.Substitution
import RowQuery.Expr.Typing
import RowQuery.Split.MemberPlan

/-!
# Parameters as members of one carrier

* `Lambda.checkParams` — what has to hold of a function before its parameters can be replaced: it
  has parameters, of pairwise different ids, and its body refers to no others.
* `CarrierMap` — the carrier parameter, and for each declared parameter the member access that
  replaces it.
* `CarrierMap.ofPlan` — the map that follows a plan.
* `CarrierMap.splitLambda` — the function of the carrier alone.
-/

namespace RowQuery

/-- **Whether the parameters of a function can be replaced.**  The first failing condition is the
failure. -/
def Lambda.checkParams (f : Lambda) : Except SplitError Unit :=
  if f.params.isEmpty then throw .emptyParameterList
  else
    match firstRepeat? Param.id f.params with
    | some p => throw (.duplicateParameter p.name)
    | none =>
        match f.body.freeParams.find? fun p => p.id ∉ f.params.map (·.id) with
        | some p => throw (.undeclaredParameter p.name)
        | none => return ()

/-- **Parameters as members of a carrier.**  The entries follow the order of the parameters. -/
structure CarrierMap where
  /-- The one parameter of the split function. -/
  carrier : Param
  /-- Each declared parameter with the expression that replaces it. -/
  entries : List (Param × Expr)
  deriving DecidableEq, Repr

namespace CarrierMap

/-- **The map that follows a plan.**  Each access keeps the type that its parameter declares, even
where the member's own type is narrower. -/
def ofPlan (carrier : Param) (params : List Param) (plan : MemberPlan) : CarrierMap where
  carrier
  entries := (params.zip plan.slots).map fun (p, slot) =>
    (p, .member (.param carrier) slot.name p.ty)

/-- The access that replaces the parameter of an id. -/
def get? (map : CarrierMap) (id : ParamId) : Option Expr :=
  (map.entries.find? fun (p, _) => p.id == id).map (·.2)

/-- The map as bindings to substitute. -/
def bindings (map : CarrierMap) : Bindings := map.entries.map fun (p, access) => (p.id, access)

/-- **The function of the carrier alone.** -/
def splitLambda (map : CarrierMap) (f : Lambda) : Lambda where
  params := [map.carrier]
  body := f.body.subst map.bindings

end CarrierMap

end RowQuery
