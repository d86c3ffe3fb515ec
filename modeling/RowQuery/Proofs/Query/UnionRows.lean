import Mathlib.Data.List.Forall2
import RowQuery.Proofs.FirstMembers
import RowQuery.Query.Sequence

/-!
# Unions of sequences

A union has the rows of both sequences, each value once, where it occurs first.  What counts as one
value is decided by equality, which compares data by structure and closures by identity.

* `Value.Equal` — equal values, as a relation; `Value.beq_iff_equal` — it is what `==` decides.
* `Value.equivalence_beq` — equality is an equivalence on all values.
* `Rows.union_assoc`, `Rows.union_self`, `Rows.union_absorb` — the laws of unions of rows.
* `Sequence.union_eq_pure` — sequences of one element type have a union.
* **`Sequence.union_of_firsts`** — the rows of a union, and the laws of unions.
-/

namespace RowQuery

/-! ## Equality of values -/

namespace Value

/-- **Equal values.**  Tuples and lists agree member by member, records in their name and, in order,
in the names and values of their fields, and closures in the evaluation that made them. -/
inductive Equal : Value → Value → Prop
  | unit : Equal .unit .unit
  | null : Equal .null .null
  | bool (b : Bool) : Equal (.bool b) (.bool b)
  | int (n : Int64) : Equal (.int n) (.int n)
  | str (s : String) : Equal (.str s) (.str s)
  | tuple {as bs : List Value} (members : List.Forall₂ Equal as bs) : Equal (.tuple as) (.tuple bs)
  | list {as bs : List Value} (members : List.Forall₂ Equal as bs) : Equal (.list as) (.list bs)
  | record (name : String) {as bs : List (String × Value)}
      (names : as.map Prod.fst = bs.map Prod.fst)
      (values : List.Forall₂ Equal (as.map Prod.snd) (bs.map Prod.snd)) :
      Equal (.record name as) (.record name bs)
  | closure (id : Nat) (f g : Lambda) (captured captured' : Env) :
      Equal (.closure id f captured) (.closure id g captured')

/-- Members are compared one by one. -/
theorem sameList_iff {R : Value → Value → Prop} {as bs : List Value}
    (h : ∀ a ∈ as, ∀ b, a.same b = true ↔ R a b) :
    sameList as bs = true ↔ List.Forall₂ R as bs := by
  induction as generalizing bs with
  | nil => cases bs <;> simp [sameList]
  | cons a as ih =>
      have rest : ∀ bs, sameList as bs = true ↔ List.Forall₂ R as bs :=
        fun _ => ih fun x hx => h x (List.mem_cons_of_mem a hx)
      cases bs with
      | nil => simp [sameList]
      | cons b bs => simp [sameList, h a List.mem_cons_self, rest]

/-- Fields are compared one by one, names and values. -/
theorem sameFields_iff {as bs : List (String × Value)} :
    sameFields as bs = true ↔ as.map Prod.fst = bs.map Prod.fst ∧
      sameList (as.map Prod.snd) (bs.map Prod.snd) = true := by
  induction as generalizing bs with
  | nil => cases bs <;> simp [sameFields, sameList]
  | cons a as ih =>
      cases bs with
      | nil => simp [sameFields]
      | cons b bs => simp [sameFields, sameList, ih, and_assoc, and_left_comm]

/-- **Equality decides the relation.**  By induction on the left value; on the right one every other
kind of value is refused. -/
theorem same_iff_equal {a b : Value} : a.same b = true ↔ Equal a b := by
  induction a generalizing b with
  | tuple items ih =>
      constructor
      · intro h
        cases b with
        | tuple bs => exact .tuple ((sameList_iff fun a ha _ => ih a ha).mp h)
        | _ => cases h
      · rintro ⟨⟩
        exact (sameList_iff fun a ha _ => ih a ha).mpr ‹_›
  | list items ih =>
      constructor
      · intro h
        cases b with
        | list bs => exact .list ((sameList_iff fun a ha _ => ih a ha).mp h)
        | _ => cases h
      · rintro ⟨⟩
        exact (sameList_iff fun a ha _ => ih a ha).mpr ‹_›
  | record name fields ih =>
      have values : ∀ a ∈ fields.map Prod.snd, ∀ b, a.same b = true ↔ Equal a b := by
        rintro _ ha b
        obtain ⟨field, hfield, rfl⟩ := List.mem_map.mp ha
        exact ih field hfield
      constructor
      · intro h
        cases b with
        | record n bs =>
            obtain ⟨hname, hfields⟩ := Bool.and_eq_true_iff.mp h
            obtain rfl := beq_iff_eq.mp hname
            obtain ⟨hnames, hvalues⟩ := sameFields_iff.mp hfields
            exact .record name hnames ((sameList_iff values).mp hvalues)
        | _ => cases h
      · rintro ⟨⟩
        refine Bool.and_eq_true_iff.mpr ⟨beq_self_eq_true name, sameFields_iff.mpr ⟨‹_›, ?_⟩⟩
        exact (sameList_iff values).mpr ‹_›
  | closure id f captured =>
      constructor
      · intro h
        cases b with
        | closure j g captured' =>
            obtain rfl := beq_iff_eq.mp h
            exact .closure id f g captured captured'
        | _ => cases h
      · rintro ⟨⟩
        exact beq_self_eq_true id
  | _ =>
      constructor
      · intro h
        cases b <;> simp_all [same]
        constructor
      · rintro ⟨⟩
        exact same_self _

/-- Equality of values is the relation. -/
theorem beq_iff_equal {a b : Value} : a == b ↔ Equal a b := same_iff_equal

/-- **Equality is an equivalence** on all values, closures included. -/
theorem equivalence_beq : Equivalence fun a b : Value => a == b :=
  ⟨fun _ => BEq.rfl, BEq.symm, BEq.trans⟩

end Value

/-! ## Unions -/

namespace Rows

/-- **Unions can be bracketed in either way.** -/
theorem union_assoc (a b c : List Value) : union (union a b) c = union a (union b c) := by
  rw [union, union, union, union, distinctBy_append_left, distinctBy_append_right,
    List.append_assoc]

/-- The union with itself is the union with no rows. -/
theorem union_self (a : List Value) : union a a = union a [] := by
  rw [union, union, distinctBy_append_of_subset (List.Subset.refl a), List.append_nil]

/-- Rows that a union has already add nothing to it. -/
theorem union_absorb {a b : List Value} {rows : List Value} (there : rows ⊆ a ++ b) :
    union (union a b) rows = union a b := by
  rw [union, union, distinctBy_append_left, distinctBy_append_of_subset there]

end Rows

namespace Sequence

/-- **Sequences of one element type have a union**, and making it evaluates nothing. -/
theorem union_eq_pure (ty : Ty) (a b : List Value) :
    union ⟨ty, a⟩ ⟨ty, b⟩ = pure ⟨ty, Rows.union a b⟩ := by
  rw [union, Query.checkSameElements, if_pos rfl]
  rfl

/-- **Unions of sequences of one element type.**  There is one.  Its rows are the first occurrences
in the rows of the left sequence followed by those of the right one, which one pass that remembers
what it met would keep; it has a value exactly if one of the two has it.  Unions can be bracketed in
either way, the union of a sequence with itself is that with no rows, and either sequence adds
nothing to a union that has it.  Rows are compared by `==`, an equivalence on all values. -/
theorem union_of_firsts {a b c : Sequence} (hb : b.elementTy = a.elementTy)
    (hc : c.elementTy = a.elementTy) :
    (∃ ab bc abc : Sequence,
      a.union b = pure ab ∧ b.union c = pure bc ∧ ab.elementTy = a.elementTy ∧
      FirstOccurrences (a.rows ++ b.rows) ab.rows ∧
      ab.rows = keepNew [] (a.rows ++ b.rows) ∧
      (∀ v, ab.rows.contains v = (a.rows.contains v || b.rows.contains v)) ∧
      ab.union c = pure abc ∧ a.union bc = pure abc ∧
      a.union a = a.union ⟨a.elementTy, []⟩ ∧ a.union a = union ⟨a.elementTy, []⟩ a ∧
      ab.union a = pure ab ∧ ab.union b = pure ab) ∧
    (Equivalence fun v w : Value => v == w) ∧ ∀ v w : Value, v == w ↔ v.Equal w := by
  obtain ⟨ty, a⟩ := a
  obtain ⟨_, b⟩ := b
  obtain ⟨_, c⟩ := c
  cases hb
  cases hc
  have firsts : FirstOccurrences (a ++ b) (Rows.union a b) := firstOccurrences_distinctBy (a ++ b)
  refine ⟨⟨⟨ty, Rows.union a b⟩, ⟨ty, Rows.union b c⟩, ⟨ty, Rows.union (Rows.union a b) c⟩,
    union_eq_pure ty a b, union_eq_pure ty b c, rfl, firsts, ?_, ?_, union_eq_pure ty _ _, ?_, ?_,
    ?_, ?_, ?_⟩, Value.equivalence_beq, fun _ _ => Value.beq_iff_equal⟩
  · -- a pass that has met nothing leaves nothing out
    rw [keepNew_eq]
    exact (List.filter_true _).symm
  · intro v
    rw [firsts.complete v, List.contains_append]
  · rw [union_eq_pure, Rows.union_assoc]
  · rw [union_eq_pure, union_eq_pure, Rows.union_self]
  · rw [union_eq_pure, union_eq_pure, Rows.union_self, Rows.union, Rows.union, List.append_nil,
      List.nil_append]
  · rw [union_eq_pure, Rows.union_absorb (List.subset_append_left a b)]
  · rw [union_eq_pure, Rows.union_absorb (List.subset_append_right a b)]

/-- A function that gives a number, as the evaluation of that number made it. -/
def numberedConstant (id : Nat) (n : Int64) : Value :=
  .tuple [.int n, .closure id ⟨[], .lit (.int n)⟩ []]

/-- Sequences of numbers with functions that give them. -/
def constantsOf (rows : List Value) : Sequence := ⟨.tuple [.int, .fn [] .int], rows⟩

/-- Functions made by different evaluations are different values, and those made by one are one. -/
theorem union_of_firsts_constants :
    let a := constantsOf [numberedConstant 0 1, numberedConstant 1 1, numberedConstant 0 1]
    let b := constantsOf [numberedConstant 1 1, numberedConstant 2 5]
    let c := constantsOf [numberedConstant 2 5]
    (b.elementTy = a.elementTy ∧ c.elementTy = a.elementTy) ∧
    ∃ ab, a.union b = pure ab ∧
      ab.rows = [numberedConstant 0 1, numberedConstant 1 1, numberedConstant 2 5] ∧
      FirstOccurrences (a.rows ++ b.rows) ab.rows ∧ ab.union b = pure ab := by
  intro a b c
  obtain ⟨⟨ab, _, _, hab, -, -, firsts, pass, -, -, -, -, -, -, again⟩, -⟩ :=
    union_of_firsts (a := a) (b := b) (c := c) rfl rfl
  exact ⟨⟨rfl, rfl⟩, ab, hab, pass.trans rfl, firsts, again⟩

end Sequence

end RowQuery
