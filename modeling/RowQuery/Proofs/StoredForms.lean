import Mathlib.Logic.Function.Basic
import RowQuery.Json.ExprForm

/-!
# Stored forms are faithful

A type, a parameter, a constant, an expression or a function is stored as a JSON tree and read
back later.  Reading accepts more than writing produces — the fields of a struct in another order
or as an array, further keys — so two stored trees may stand for one expression; two expressions
never share a stored tree.

* `Json.Faithful` — a form that reads back, tells data apart, and is settled: what was read is
  read again from the form written anew.
* `Json.Faithful.of_readBack` — all three follow from the round trip.
* `ParamId.ofInt?_eq_some_iff`, `Literal.ofJson?_int_eq_some_iff` — the range of integers: a number
  is read exactly if it is the number of an id, or of a word.
* `Ty.tag?_eq_of_ofJson?`, `Literal.tag?_eq_of_ofJson?`, `Expr.tag?_eq_of_ofJson?` — whatever is
  read, its kind is the word or the one key found at the root.
* `storedForms_faithful` — the five forms are faithful.
-/

namespace RowQuery

namespace Json

/-- **A faithful stored form** of data of one kind, given by how it is written and how it is
read. -/
structure Faithful {α : Type} (write : α → Json) (read? : Json → Option α) : Prop where
  /-- What is written reads back as itself. -/
  readBack : ∀ a, read? (write a) = some a
  /-- Different data have different forms. -/
  distinct : Function.Injective write
  /-- What was read, from any tree, is read again from the form it is written in. -/
  settled : ∀ j a, read? j = some a → read? (write a) = some a

/-- **The round trip is enough**: a form that reads back is faithful. -/
theorem Faithful.of_readBack {α : Type} {write : α → Json} {read? : Json → Option α}
    (readBack : ∀ a, read? (write a) = some a) : Faithful write read? where
  readBack := readBack
  distinct := by
    intro a b same
    have read : read? (write a) = read? (write b) := congrArg read? same
    rw [readBack, readBack] at read
    exact Option.some.inj read
  settled := fun _ a _ => readBack a

/-- The name at the root of a stored tree: a bare word, or the one key of an object. -/
def tag? : Json → Option String
  | .str word => some word
  | .obj [(key, _)] => some key
  | _ => none

end Json

/-! ## The range of integers

An id has 32 bits without a sign and an integer 64 bits with one.  Reading neither wraps around
nor saturates: a number out of range is refused.
-/

/-- A number is read as an id exactly if it is the number of that id. -/
theorem ParamId.ofInt?_eq_some_iff {n : Int} {id : ParamId} :
    ParamId.ofInt? n = some id ↔ (id.val.toNat : Int) = n := by
  constructor
  · intro read
    cases n with
    | ofNat k =>
      simp only [ofInt?] at read
      split at read
      · obtain rfl := Option.some.inj read
        simp
      · simp at read
    | negSucc k => simp [ofInt?] at read
  · rintro rfl
    exact ParamId.ofInt?_val id

/-- A number is read as a constant exactly if the constant is a word with that number. -/
theorem Literal.ofJson?_int_eq_some_iff {n : Int} {l : Literal} :
    Literal.ofJson? (.obj [("Int", .int n)]) = some l ↔ ∃ w, l = .int w ∧ w.toInt = n := by
  rw [show ofJson? (.obj [("Int", .int n)]) = (word? n).map Literal.int by simp [ofJson?],
    Option.map_eq_some_iff]
  constructor
  · rintro ⟨w, held, rfl⟩
    exact ⟨w, rfl, word?_eq_some_iff.1 held⟩
  · rintro ⟨w, rfl, held⟩
    exact ⟨w, word?_eq_some_iff.2 held, rfl⟩

/-! ## Kinds -/

/-- The name under which types of the shape of `t` are stored. -/
def Ty.tag : Ty → String
  | .con _ => "Con"
  | .app _ _ => "App"
  | .tuple _ => "Tuple"
  | .fn _ _ => "Fun"
  | .never => "Never"

/-- The name under which constants of the kind of `l` are stored. -/
def Literal.tag : Literal → String
  | .unit => "Unit"
  | .null => "Null"
  | .bool _ => "Bool"
  | .int _ => "Int"
  | .str _ => "Str"

/-- The name under which nodes of the kind of `e` are stored. -/
def Expr.tag : Expr → String
  | .param _ => "Param"
  | .lit _ => "Lit"
  | .member _ _ _ => "Member"
  | .unary _ _ _ => "Unary"
  | .binary _ _ _ _ => "Binary"
  | .call _ _ _ => "Call"
  | .ite _ _ _ _ => "If"
  | .construct _ _ => "Construct"
  | .tuple _ => "Tuple"
  | .list _ _ => "List"
  | .lambda _ _ => "Lambda"
  | .invoke _ _ _ => "Invoke"

/-- A type is read only from a tree that names its shape at the root. -/
theorem Ty.tag?_eq_of_ofJson? {j : Json} {t : Ty} (read : Ty.ofJson? j = some t) :
    j.tag? = some t.tag := by
  unfold Ty.ofJson? at read
  split at read
  case h_3 =>
    -- the fields of a named type are matched once more, inside the computation
    obtain ⟨parts, -, read⟩ := Option.bind_eq_some_iff.1 read
    split at read <;> simp [Option.bind_eq_some_iff] at read
    grind [Json.tag?, Ty.tag]
  all_goals
    simp [Option.bind_eq_some_iff] at read <;> grind [Json.tag?, Ty.tag]

/-- A constant is read only from a tree that names its kind at the root. -/
theorem Literal.tag?_eq_of_ofJson? {j : Json} {l : Literal} (read : Literal.ofJson? j = some l) :
    j.tag? = some l.tag := by
  unfold Literal.ofJson? at read
  split at read <;> simp at read <;> grind [Json.tag?, Literal.tag]

/-- An expression is read only from a tree that names the kind of its root node. -/
theorem Expr.tag?_eq_of_ofJson? {j : Json} {e : Expr} (read : Expr.ofJson? j = some e) :
    j.tag? = some e.tag := by
  unfold Expr.ofJson? at read
  split at read <;>
    simp [Option.bind_eq_some_iff] at read <;> grind [Json.tag?, Expr.tag]

/-! ## The five forms -/

/-- **Stored forms are faithful**: types, parameters, constants, expressions and functions.  The
types on the nodes are stored and read as they stand, so nothing is asked of them. -/
theorem storedForms_faithful :
    Json.Faithful Ty.toJson Ty.ofJson? ∧
    Json.Faithful Param.toJson Param.ofJson? ∧
    Json.Faithful Literal.toJson Literal.ofJson? ∧
    Json.Faithful Expr.toJson Expr.ofJson? ∧
    Json.Faithful Lambda.toJson Lambda.ofJson? :=
  ⟨.of_readBack Ty.ofJson?_toJson, .of_readBack Param.ofJson?_toJson,
    .of_readBack Literal.ofJson?_toJson, .of_readBack Expr.ofJson?_toJson,
    .of_readBack Lambda.ofJson?_toJson⟩

end RowQuery
