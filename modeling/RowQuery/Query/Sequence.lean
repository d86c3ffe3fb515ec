import RowQuery.Query.Source
import RowQuery.Query.Typing

/-!
# Sequences

A sequence is a list of rows of one element type.  Its operations produce rows at once.

* `KeyTable` — rows by key, for correlation.
* `Rows.correlate`, `Rows.flatten`, `Rows.project`, `Rows.filter`, `Rows.union` — the operations on
  plain rows.
* `Sequence` — rows with their type.  Each operation checks types first.
* `instSourceSequence` — sequences are sources.
-/

namespace RowQuery

/-! ## Rows by key -/

/-- **Rows by key**: the rows of each key in the order in which they came. -/
abbrev KeyTable := List (Value × List Value)

namespace KeyTable

/-- A table with one more row. -/
def add (table : KeyTable) (key row : Value) : KeyTable :=
  match table with
  | [] => [(key, [row])]
  | (k, rows) :: rest =>
      if k == key then (k, rows ++ [row]) :: rest else (k, rows) :: add rest key row

/-- The table of keyed rows.  Rows with an absent key are left out unless absent keys match. -/
def ofRows (nullKeysMatch : Bool) (keyed : List (Value × Value)) : KeyTable :=
  (keyed.filter fun (key, _) => nullKeysMatch || !key.isNull).foldl
    (fun table (key, row) => table.add key row) []

/-- The rows of a key. -/
def rows (table : KeyTable) (key : Value) : List Value :=
  match table with
  | [] => []
  | (k, rows) :: rest => if k == key then rows else KeyTable.rows rest key

end KeyTable

/-! ## Operations on rows -/

namespace Rows

/-- The rows with their keys. -/
def keyed (callDepth : Nat) (key : Lambda) (rows : List Value) : RowM (List (Value × Value)) :=
  rows.mapM fun row => return (← key.onRow callDepth row, row)

/-- **Correlation**: each outer row with the inner rows of its key.  The keys of all inner rows are
evaluated first. -/
def correlate (callDepth : Nat) (nullKeysMatch : Bool) (outerKey innerKey : Lambda)
    (outer inner : List Value) : RowM (List Value) := do
  let table := KeyTable.ofRows nullKeysMatch (← keyed callDepth innerKey inner)
  return (← keyed callDepth outerKey outer).map fun (key, row) =>
    Grouping.value row (table.rows key)

/-- The join rows of a grouping. -/
def flattenOne (row : Value) : Except QueryError (List Value) :=
  match row.field? Grouping.outer, row.field? Grouping.group with
  | some outer, some (.list []) => return [JoinRow.value outer .null]
  | some outer, some (.list members) => return members.map (JoinRow.value outer)
  | _, _ => throw (.malformedRow Grouping.name)

/-- **Flattening**: the join rows of all groupings. -/
def flatten (rows : List Value) : Except QueryError (List Value) :=
  return (← rows.mapM flattenOne).flatten

/-- **Projection**: the values of a function. -/
def project (callDepth : Nat) (selector : Lambda) (rows : List Value) : RowM (List Value) :=
  rows.mapM (selector.onRow callDepth)

/-- Whether a value is true; an absent one is not. -/
def isTrue : Value → Bool
  | .bool b => b
  | _ => false

/-- **Filtering**: the rows of which a predicate is true. -/
def filter (callDepth : Nat) (predicate : Lambda) : List Value → RowM (List Value)
  | [] => return []
  | row :: rows => do
      let verdict ← predicate.onRow callDepth row
      let kept ← filter callDepth predicate rows
      return if isTrue verdict then row :: kept else kept

/-- **Union**: each value once, in the order of first occurrence. -/
def union (left right : List Value) : List Value := distinctBy id (left ++ right)

end Rows

/-! ## Sequences -/

/-- **Rows of one element type.** -/
structure Sequence where
  elementTy : Ty
  rows : List Value
  deriving Repr, Inhabited

namespace Sequence

/-- Each outer row with the inner rows whose key equals its own. -/
def correlate (ctx : QueryContext) (outer inner : Sequence) (outerKey innerKey : Lambda) :
    RowM Sequence := do
  let ty ← .ofExcept (Query.correlatedTy outer.elementTy inner.elementTy outerKey innerKey)
  return ⟨ty, ← Rows.correlate ctx.callDepth ctx.join.nullKeysMatch outerKey innerKey
    outer.rows inner.rows⟩

/-- The join rows of groupings. -/
def flattenWithDefault (source : Sequence) : RowM Sequence := do
  let ty ← .ofExcept (Query.flattenedTy source.elementTy)
  return ⟨ty, ← .ofExcept (Rows.flatten source.rows)⟩

/-- The values of a function on the rows. -/
def project (ctx : QueryContext) (source : Sequence) (selector : Lambda) : RowM Sequence := do
  RowM.ofExcept (Query.checkUnary "project" selector source.elementTy)
  return ⟨selector.retTy, ← Rows.project ctx.callDepth selector source.rows⟩

/-- The rows of which a predicate is true. -/
def filter (ctx : QueryContext) (source : Sequence) (predicate : Lambda) : RowM Sequence := do
  RowM.ofExcept (Query.checkPredicate predicate source.elementTy)
  return ⟨source.elementTy, ← Rows.filter ctx.callDepth predicate source.rows⟩

/-- The rows of both, each value once. -/
def union (left right : Sequence) : RowM Sequence := do
  RowM.ofExcept (Query.checkSameElements "union" left.elementTy right.elementTy)
  return ⟨left.elementTy, Rows.union left.rows right.rows⟩

/-- The rows of both. -/
def concat (left right : Sequence) : RowM Sequence := do
  RowM.ofExcept (Query.checkSameElements "concat" left.elementTy right.elementTy)
  return ⟨left.elementTy, left.rows ++ right.rows⟩

end Sequence

instance instSourceSequence : Source Sequence where
  elementTy := Sequence.elementTy
  correlate outer inner outerKey innerKey := do
    .ofRows (outer.correlate (← read) inner outerKey innerKey)
  flattenWithDefault source := .ofRows source.flattenWithDefault
  project source selector := do .ofRows (source.project (← read) selector)
  filter source predicate := do .ofRows (source.filter (← read) predicate)
  union left right := .ofRows (left.union right)
  concat left right := .ofRows (left.concat right)

end RowQuery
