/-!
# Types of rows and expressions

The type language: named constructors, applications, tuples, function types and the bottom type.

* `Ty` — the types, compared structurally (`DecidableEq Ty`).
* `Ty.option` — the optional type.  Absence is one sentinel, so an option of an option is the
  option itself.
* `Ty.conName?`, `Ty.args`, `Ty.isOption`, `Ty.stripOption` — how a type is read.
* `Ty.isAssignableTo` — which values may be bound where another type is declared: equal types,
  a plain type into its option, and the bottom type into anything.

`Ty.induct` is induction on types with a hypothesis for every member of an argument list.
-/

namespace RowQuery

/-- **Types.**  A generic parameter of a struct definition is a `con` with the parameter's name. -/
inductive Ty where
  /-- A named constructor such as `Int`. -/
  | con (name : String)
  /-- A constructor applied to arguments, as in `Option<Int>`. -/
  | app (head : Ty) (args : List Ty)
  /-- A tuple type. -/
  | tuple (items : List Ty)
  /-- A function type. -/
  | fn (params : List Ty) (result : Ty)
  /-- The bottom type: the type of the absent value. -/
  | never
  deriving Inhabited, Repr

namespace Ty

/-- **Induction on types**, with a hypothesis for each member of an argument list. -/
@[induction_eliminator]
theorem induct {motive : Ty → Prop}
    (con : ∀ name, motive (.con name))
    (app : ∀ head args, motive head → (∀ t ∈ args, motive t) → motive (.app head args))
    (tuple : ∀ items, (∀ t ∈ items, motive t) → motive (.tuple items))
    (fn : ∀ params result, (∀ t ∈ params, motive t) → motive result →
      motive (.fn params result))
    (never : motive .never) : ∀ t, motive t :=
  @Ty.rec motive (fun ts => ∀ t ∈ ts, motive t) con app tuple fn never
    (fun _ h => nomatch h)
    (fun _ _ head tail t h => by
      cases h with
      | head => exact head
      | tail _ h => exact tail t h)

/-! ## Equality -/

mutual

/-- Whether two types are the same tree. -/
def same : Ty → Ty → Bool
  | .con a, .con b => a == b
  | .app f as, .app g bs => f.same g && sameList as bs
  | .tuple as, .tuple bs => sameList as bs
  | .fn ps r, .fn qs s => sameList ps qs && r.same s
  | .never, .never => true
  | _, _ => false

/-- `Ty.same`, member by member. -/
def sameList : List Ty → List Ty → Bool
  | [], [] => true
  | a :: as, b :: bs => a.same b && sameList as bs
  | _, _ => false

end

mutual

/-- Every type is the same tree as itself. -/
theorem same_self : ∀ t : Ty, t.same t = true
  | .con _ => by simp [same]
  | .app f as => by simp [same, same_self f, sameList_self as]
  | .tuple as => by simp [same, sameList_self as]
  | .fn ps r => by simp [same, sameList_self ps, same_self r]
  | .never => by simp [same]

/-- Every list of types is the same as itself. -/
theorem sameList_self : ∀ ts : List Ty, sameList ts ts = true
  | [] => by simp [sameList]
  | t :: ts => by simp [sameList, same_self t, sameList_self ts]

end

mutual

/-- Types that are the same tree are equal. -/
theorem eq_of_same : ∀ {s t : Ty}, s.same t = true → s = t
  | .con a, t, h => by cases t <;> simp_all [same]
  | .app f as, t, h => by
      cases t with
      | app g bs =>
          simp only [same, Bool.and_eq_true] at h
          rw [eq_of_same h.1, eq_of_sameList h.2]
      | _ => simp [same] at h
  | .tuple as, t, h => by
      cases t with
      | tuple bs =>
          simp only [same] at h
          rw [eq_of_sameList h]
      | _ => simp [same] at h
  | .fn ps r, t, h => by
      cases t with
      | fn qs s =>
          simp only [same, Bool.and_eq_true] at h
          rw [eq_of_sameList h.1, eq_of_same h.2]
      | _ => simp [same] at h
  | .never, t, h => by cases t <;> simp_all [same]

/-- Lists of types that agree member by member are equal. -/
theorem eq_of_sameList : ∀ {ss ts : List Ty}, sameList ss ts = true → ss = ts
  | [], ts, h => by cases ts <;> simp_all [sameList]
  | s :: ss, ts, h => by
      cases ts with
      | nil => simp [sameList] at h
      | cons t ts =>
          simp only [sameList, Bool.and_eq_true] at h
          rw [eq_of_same h.1, eq_of_sameList h.2]

end

instance : DecidableEq Ty := fun s t =>
  if h : s.same t then isTrue (eq_of_same h)
  else isFalse fun e => h (e ▸ same_self s)

/-! ## Named types -/

/-- Whole numbers. -/
protected def int : Ty := .con "Int"

/-- Text. -/
protected def string : Ty := .con "String"

/-- Truth values. -/
protected def bool : Ty := .con "Bool"

/-- The type with one value. -/
protected def unit : Ty := .con "Unit"

/-- Lists of one element type. -/
protected def list (elem : Ty) : Ty := .app (.con "List") [elem]

/-- A struct type with its arguments; a struct without parameters is applied to none. -/
def struct (name : String) (args : List Ty) : Ty := .app (.con name) args

/-! ## Reading a type -/

/-- The name of the outermost constructor, if there is one. -/
def conName? : Ty → Option String
  | .con name => some name
  | .app head _ => head.conName?
  | _ => none

/-- The arguments of an application; every other type has none. -/
def args : Ty → List Ty
  | .app _ args => args
  | _ => []

/-- Whether the type is `Option` of one argument. -/
def isOption (t : Ty) : Bool :=
  t.conName? == some "Option" && t.args.length == 1

/-- The type without its option; a type that is no option is returned as it is. -/
def stripOption (t : Ty) : Ty :=
  if t.isOption then t.args.headD t else t

/-- **The optional type.**  An option is already optional, so it is returned as it is. -/
protected def option (t : Ty) : Ty :=
  if t.isOption then t else .app (.con "Option") [t]

/-- **Assignability.**  A value of the first type may be bound where the second is declared if
the types are equal, if the first is the bottom type, or if the second is the option of the
first, which is itself no option. -/
def isAssignableTo (t target : Ty) : Bool :=
  t == target || t == .never ||
    (target.isOption && !t.isOption && target.stripOption == t)

/-! ## Laws of options -/

/-- The option of a type is an option. -/
@[simp]
theorem isOption_option (t : Ty) : t.option.isOption = true := by
  unfold Ty.option
  split
  · assumption
  · simp [isOption, conName?, args]

/-- Options do not nest. -/
@[simp]
theorem option_option (t : Ty) : t.option.option = t.option := by
  rw [Ty.option.eq_1 t.option, isOption_option, if_pos rfl]

/-- Every type may be bound where it is declared. -/
@[simp]
theorem isAssignableTo_self (t : Ty) : t.isAssignableTo t = true := by
  simp [isAssignableTo]

/-- A plain type may be bound where its option is declared. -/
theorem isAssignableTo_option (t : Ty) : t.isAssignableTo t.option = true := by
  by_cases h : t.isOption
  · rw [Ty.option, if_pos h, isAssignableTo_self]
  · have wrapped : t.option = .app (.con "Option") [t] := by rw [Ty.option, if_neg h]
    have strip : t.option.stripOption = t := by
      rw [stripOption, isOption_option, if_pos rfl, wrapped]; rfl
    simp [isAssignableTo, h, strip]

end Ty

end RowQuery
