import RowQuery.Expr.ParamOrder
import RowQuery.Query.SplitSource

/-!
# Outer joins

A join takes an outer and an inner source, a key for each, and a selector of two parameters: the
outer and the inner element.  The side that may be missing is absent where it is.

* `Source.leftOuterJoin` — correlate, flatten with a default, and project with the selector split
  over the join row.
* `Source.rightOuterJoin` — the same with the roles of the sources exchanged, and with them the
  selector's parameters.
* `Source.fullOuterJoin` — the left rows followed by one row for each inner element without a
  match, or the union of the left and the right rows.
-/

namespace RowQuery.Source

variable {σ : Type} [Source σ]

/-- Whether a selector takes two parameters. -/
def checkSelector (selector : Lambda) : Except QueryError Unit :=
  if selector.arity = 2 then return () else throw (.split (.arityMismatch 2 selector.arity))

/-- The join rows of two sources, an absent inner element where none matches. -/
def joinRows (outer inner : σ) (outerKey innerKey : Lambda) : QueryM σ := do
  flattenWithDefault (← correlate outer inner outerKey innerKey)

/-- **Left outer join**: every outer element appears. -/
def leftOuterJoin (outer inner : σ) (outerKey innerKey selector : Lambda) : QueryM σ := do
  QueryM.ofExcept (checkSelector selector)
  selectSplit (← joinRows outer inner outerKey innerKey) selector

/-- **Right outer join**: every inner element appears. -/
def rightOuterJoin (outer inner : σ) (outerKey innerKey selector : Lambda) : QueryM σ := do
  let switched ← .ofExcept (selector.switch.mapError .split)
  selectSplit (← joinRows inner outer innerKey outerKey) switched

/-- The predicate on groupings that the group is empty. -/
def emptyGroup (grouped : σ) : QueryM Lambda := do
  let g ← .ofSplit (SplitM.newParam "g" (elementTy grouped))
  let group ← .ofExcept
    (((← read).schema.memberAccess (.param g) Grouping.group).mapError .schema)
  return ⟨[g], .callOf .isEmpty [group]⟩

/-- The join rows of the inner elements that no outer element matches. -/
def unmatchedRows (outer inner : σ) (outerKey innerKey : Lambda) : QueryM σ := do
  let grouped ← correlate inner outer innerKey outerKey
  flattenWithDefault (← filter grouped (← emptyGroup grouped))

/-- **Full outer join**: every element of both sources appears. -/
def fullOuterJoin (outer inner : σ) (outerKey innerKey selector : Lambda) : QueryM σ := do
  match (← read).join.fullJoin with
  | .antiJoin =>
      let switched ← .ofExcept (selector.switch.mapError .split)
      let left ← leftOuterJoin outer inner outerKey innerKey selector
      let right ← selectSplit (← unmatchedRows outer inner outerKey innerKey) switched
      concat left right
  | .union =>
      let left ← leftOuterJoin outer inner outerKey innerKey selector
      let right ← rightOuterJoin outer inner outerKey innerKey selector
      union left right

end RowQuery.Source
