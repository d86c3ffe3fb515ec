import RowQuery.Query.Source

/-!
# Functions over the members of elements

Projection and filtering with functions of several parameters, which are matched to the members of
the element type.

* `Source.splitAgainst` — the function of one element that stands for a given function.
* `Source.selectSplit`, `Source.whereSplit` — projection and filtering with it.
-/

namespace RowQuery.Source

variable {σ : Type} [Source σ]

/-- Whether a function takes a whole element as its one parameter. -/
def takesElement (f : Lambda) (element : Ty) : Bool :=
  match f.params with
  | [p] => element.isAssignableTo p.ty
  | _ => false

/-- **The function of one element.**  A function that takes the element is used as it is; any other
is split against the element type. -/
def splitAgainst (source : σ) (f : Lambda) : QueryM Lambda := do
  let element := elementTy source
  if takesElement f element then return f
  else .ofSplit ((← read).splitter.split f element)

/-- **Projection** with a function of the element's members. -/
def selectSplit (source : σ) (selector : Lambda) : QueryM σ := do
  project source (← splitAgainst source selector)

/-- **Filtering** with a predicate on the element's members. -/
def whereSplit (source : σ) (predicate : Lambda) : QueryM σ := do
  filter source (← splitAgainst source predicate)

end RowQuery.Source
