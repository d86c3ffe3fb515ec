import RowQuery.Query.Error
import RowQuery.Query.JoinCarriers

/-!
# Types of queries

Every operation on sources is checked against the element types before any row is touched, and its
result has an element type.

* `Query.checkUnary` — a function of one parameter that takes the elements.
* `Query.correlatedTy`, `Query.flattenedTy` — the element types of correlation and flattening.
* `Query.checkPredicate`, `Query.checkSameElements` — what filters and combinations need.
-/

namespace RowQuery.Query

/-- **Whether a function takes one element.** -/
def checkUnary (op : String) (f : Lambda) (element : Ty) : Except QueryError Unit :=
  match f.params with
  | [p] =>
      if element.isAssignableTo p.ty then return ()
      else throw (.selectorInputMismatch op p.ty element)
  | _ => throw (.split (.arityMismatch 1 f.arity))

/-- **The element type of a correlation**, if the keys take the elements and can be compared.  An
optional key can be compared with a plain one. -/
def correlatedTy (outer inner : Ty) (outerKey innerKey : Lambda) : Except QueryError Ty := do
  checkUnary "correlate" outerKey outer
  checkUnary "correlate" innerKey inner
  if outerKey.retTy.stripOption = innerKey.retTy.stripOption then return Grouping.ty outer inner
  else throw (.keyTypeMismatch outerKey.retTy innerKey.retTy)

/-- **The element type of a flattened source**: join rows with an inner element that may be
absent. -/
def flattenedTy (grouping : Ty) : Except QueryError Ty :=
  match grouping.args with
  | [outer, inner] =>
      if grouping.conName? = some Grouping.name then return JoinRow.ty outer inner.option
      else throw (.notAGrouping grouping)
  | _ => throw (.notAGrouping grouping)

/-- **Whether a function is a predicate on the elements**; an optional truth value will do. -/
def checkPredicate (predicate : Lambda) (element : Ty) : Except QueryError Unit := do
  checkUnary "filter" predicate element
  if predicate.retTy.stripOption = .bool then return ()
  else throw (.predicateNotBool predicate.retTy)

/-- **Whether two sources have the same elements.** -/
def checkSameElements (op : String) (left right : Ty) : Except QueryError Unit :=
  if left = right then return () else throw (.elementTypeMismatch op left right)

end RowQuery.Query
