import RowQuery.Ty.Basic

/-!
# Instantiating generic parameters

The field types of a generic struct name its parameters as plain constructors.  Instantiation
replaces those names by arguments.

* `Ty.instantiate` — replace each name that a table binds.  An application whose head reads
  `Option` is built by `Ty.option`, so instantiation never nests options.
* `Ty.Covers` — every parameter that a type names has an argument at its position.
* `Ty.instantiate?` — instantiate from two lists, parameters and arguments; defined where the
  arguments cover the type.
-/

namespace RowQuery.Ty

/-- An application as instantiation builds it: `Option` of one argument stays flat. -/
def applied (head : Ty) (args : List Ty) : Ty :=
  match head.conName? == some "Option", args with
  | true, [inner] => inner.option
  | _, _ => .app head args

mutual

/-- **Instantiation.**  Every constructor name that `table` binds is replaced by the type bound
to it; the first binding of a name counts. -/
def instantiate (table : List (String × Ty)) : Ty → Ty
  | .con name => (table.lookup name).getD (.con name)
  | .app head args => applied (head.instantiate table) (instantiateList table args)
  | .tuple items => .tuple (instantiateList table items)
  | .fn params result => .fn (instantiateList table params) (result.instantiate table)
  | .never => .never

/-- `Ty.instantiate` on each type of a list. -/
def instantiateList (table : List (String × Ty)) : List Ty → List Ty
  | [] => []
  | t :: ts => t.instantiate table :: instantiateList table ts

end

@[simp]
theorem instantiateList_eq_map (table : List (String × Ty)) (ts : List Ty) :
    instantiateList table ts = ts.map (instantiate table) := by
  induction ts with
  | nil => rfl
  | cons t ts ih => simp [instantiateList, ih]

mutual

/-- The constructor names that occur in a type, from left to right. -/
def names : Ty → List String
  | .con name => [name]
  | .app head args => head.names ++ namesList args
  | .tuple items => namesList items
  | .fn params result => namesList params ++ result.names
  | .never => []

/-- The names in a list of types. -/
def namesList : List Ty → List String
  | [] => []
  | t :: ts => t.names ++ namesList ts

end

@[simp]
theorem namesList_eq_flatMap (ts : List Ty) : namesList ts = ts.flatMap names := by
  induction ts with
  | nil => rfl
  | cons t ts ih => simp [namesList, ih]

/-- Whether `arity` arguments cover the type: no name in it is a parameter whose first position
is `arity` or beyond. -/
def Covers (params : List String) (arity : Nat) (t : Ty) : Prop :=
  ∀ name ∈ t.names, name ∈ params → params.idxOf name < arity

instance (params : List String) (arity : Nat) (t : Ty) : Decidable (t.Covers params arity) :=
  inferInstanceAs (Decidable (∀ name ∈ t.names, name ∈ params → params.idxOf name < arity))

/-- Instantiation from parameters and arguments in two lists.  It has no answer if the type names
a parameter that has no argument. -/
def instantiate? (params : List String) (args : List Ty) (t : Ty) : Option Ty :=
  if t.Covers params args.length then some (t.instantiate (params.zip args)) else none

/-- As many arguments as parameters cover every type. -/
theorem covers_of_length {params : List String} {arity : Nat} (h : params.length = arity)
    (t : Ty) : t.Covers params arity :=
  fun _ _ hp => h ▸ List.idxOf_lt_length_of_mem hp

end RowQuery.Ty
