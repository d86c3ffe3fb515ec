import RowQuery.Query.Context

/-!
# Sources

* `Source` — what can be queried: a type with an element type and six operations.  Outer joins are
  composed of them, for every source alike.
-/

namespace RowQuery

/-- **Sources of typed elements.**  Every operation checks its functions against the element types
when it is composed. -/
class Source (σ : Type) where
  /-- The type of the elements. -/
  elementTy : σ → Ty
  /-- Each outer element with the list of the inner elements whose key equals its own. -/
  correlate (outer inner : σ) (outerKey innerKey : Lambda) : QueryM σ
  /-- One join row for each member of a group, and one with an absent inner element for an empty
  group. -/
  flattenWithDefault (source : σ) : QueryM σ
  /-- The values of a function on the elements. -/
  project (source : σ) (selector : Lambda) : QueryM σ
  /-- The elements of which a predicate is true. -/
  filter (source : σ) (predicate : Lambda) : QueryM σ
  /-- The elements of both sources, each value once. -/
  union (left right : σ) : QueryM σ
  /-- The elements of the left source, then those of the right one. -/
  concat (left right : σ) : QueryM σ

end RowQuery
