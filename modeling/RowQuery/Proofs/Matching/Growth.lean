import Mathlib.Data.List.Sort
import RowQuery.Proofs.Matching.FirstFree

/-!
# Matching in a carrier with more members

A carrier that gets more members keeps the plans that were made for it, if the new members stand
behind the old ones or fit none of the expected types.  So no parameter is bound anew when a carrier
grows in one of these ways.

* `MemberSlot.firstFree_append` — members behind the others are not needed.
* `MemberSlot.Inserts` — members that fit no expected type, put in anywhere; `MemberSlot.moveTo` and
  `MemberPlan.moveTo` say where the old members stand then.
* `MemberSlot.firstFree_inserts` — the same members are chosen.
* **`MemberPlan.ofMembers_grow`** — plans in a grown carrier, and plans for fewer types.
-/

namespace RowQuery

namespace MemberSlot

variable {mode : MatchMode} {claimed : List Nat} {expected : List Ty}

/-! ## Members behind the others -/

/-- **Members behind the others are not needed** if there is a member for each type. -/
theorem firstFree_append {members : List MemberSlot}
    (all : (firstFree mode members claimed expected).length = expected.length)
    (more : List MemberSlot) :
    firstFree mode (members ++ more) claimed expected =
      firstFree mode members claimed expected := by
  induction expected generalizing claimed with
  | nil => rfl
  | cons t rest ih =>
      rw [firstFree] at all
      cases found : members.find? (canServe mode claimed t) with
      | none => simp [found] at all
      | some slot =>
          simp only [found, List.length_cons, Nat.add_right_cancel_iff] at all
          simp only [firstFree, List.find?_append, found, Option.some_or, ih all]

theorem ofMembers_append (members more : List FieldDef) :
    ∃ behind, ofMembers (members ++ more) = ofMembers members ++ behind := by
  rw [ofMembers, List.zipIdx_append, List.map_append]
  exact ⟨_, rfl⟩

/-! ## Members in between -/

/-- **Members put in between.**  The member at position `i` of `members` stands at position
`place i` of `grown`, in the same order, and all others there fit none of the expected types. -/
structure Inserts (mode : MatchMode) (expected : List Ty) (members grown : List FieldDef)
    (place : Nat → Nat) : Prop where
  ordered : StrictMono place
  kept : ∀ i, grown[place i]? = members[i]?
  unfit : ∀ k member, grown[k]? = some member → k ∉ Set.range place →
    ∀ t ∈ expected, mode.fits member.ty t = false

/-- A member at its new position. -/
def moveTo (place : Nat → Nat) (slot : MemberSlot) : MemberSlot :=
  { slot with index := place slot.index }

variable {members grown : List FieldDef} {place : Nat → Nat}

/-- **The members that can still serve a type** are the old ones. -/
theorem filter_canServe_inserts (h : Inserts mode expected members grown place) {t : Ty}
    (ht : t ∈ expected) :
    (ofMembers grown).filter (canServe mode (claimed.map place) t) =
      ((ofMembers members).filter (canServe mode claimed t)).map (moveTo place) := by
  have injective := h.ordered.injective
  have sorted : ((ofMembers members).filter (canServe mode claimed t)).Pairwise fun a b =>
      a.index < b.index := (pairwise_ofMembers members).filter _
  refine List.Pairwise.eq_of_mem_iff ((pairwise_ofMembers grown).filter _) ?_ fun slot => ?_
  · rw [List.pairwise_map]
    exact sorted.imp fun hab => h.ordered hab
  · rw [List.mem_filter, mem_ofMembers_iff, canServe_iff]
    constructor
    · rintro ⟨found, fits, free⟩
      by_cases old : slot.index ∈ Set.range place
      · obtain ⟨i, hi⟩ := old
        rw [← hi, h.kept] at found
        rw [← hi, List.mem_map_of_injective injective] at free
        have here : (⟨i, slot.name, slot.ty⟩ : MemberSlot) ∈
            (ofMembers members).filter (canServe mode claimed t) :=
          List.mem_filter.mpr ⟨mem_ofMembers_iff.mpr found, canServe_iff.mpr ⟨fits, free⟩⟩
        have moved := List.mem_map_of_mem (f := moveTo place) here
        rwa [moveTo, hi] at moved
      · rw [h.unfit slot.index _ found old t ht] at fits
        cases fits
    · intro moved
      obtain ⟨old, hold, rfl⟩ := List.mem_map.mp moved
      obtain ⟨found, serves⟩ := List.mem_filter.mp hold
      obtain ⟨fits, free⟩ := canServe_iff.mp serves
      refine ⟨(h.kept old.index).trans (mem_ofMembers_iff.mp found), fits, ?_⟩
      rwa [moveTo, List.mem_map_of_injective injective]

/-- **The same members are chosen.** -/
theorem firstFree_inserts (h : Inserts mode expected members grown place) :
    firstFree mode (ofMembers grown) (claimed.map place) expected =
      (firstFree mode (ofMembers members) claimed expected).map (moveTo place) := by
  induction expected generalizing claimed with
  | nil => rfl
  | cons t rest ih =>
      have first : (ofMembers grown).find? (canServe mode (claimed.map place) t) =
          ((ofMembers members).find? (canServe mode claimed t)).map (moveTo place) := by
        rw [← List.head?_filter, filter_canServe_inserts h List.mem_cons_self, List.head?_map,
          List.head?_filter]
      have later : Inserts mode rest members grown place :=
        ⟨h.ordered, h.kept, fun k member found new u hu =>
          h.unfit k member found new u (List.mem_cons_of_mem _ hu)⟩
      rw [firstFree, firstFree, first]
      cases (ofMembers members).find? (canServe mode claimed t) with
      | none => rfl
      | some slot => exact congrArg (List.cons _) (@ih (slot.index :: claimed) later)

end MemberSlot

/-! ## Plans -/

namespace MemberPlan

/-- A plan with its members at their new positions. -/
def moveTo (place : Nat → Nat) (plan : MemberPlan) : MemberPlan :=
  { plan with slots := plan.slots.map (MemberSlot.moveTo place) }

/-- **Plans last.**  Members behind the others leave a plan as it is.  Members in between that fit
none of the expected types leave it the names and types that it has; only positions change.  A plan
for fewer types is the first part of a plan for more. -/
theorem ofMembers_grow {mode : MatchMode} {carrier : Ty} {members : List FieldDef}
    {expected : List Ty} {plan : MemberPlan}
    (h : ofMembers mode carrier members expected = .ok plan) :
    (∀ more, ofMembers mode carrier (members ++ more) expected = .ok plan) ∧
    (∀ grown place, MemberSlot.Inserts mode expected members grown place →
      ofMembers mode carrier grown expected = .ok (plan.moveTo place)) ∧
    ∀ n, ofMembers mode carrier members (expected.take n) =
      .ok { plan with slots := plan.slots.take n } := by
  obtain ⟨rfl, all⟩ := ofMembers_eq_ok_iff.mp h
  refine ⟨fun more => ?_, fun grown place inserts => ?_, fun n => ?_⟩
  · have same : freeSlots mode (members ++ more) expected = freeSlots mode members expected := by
      obtain ⟨behind, split⟩ := MemberSlot.ofMembers_append members more
      rw [freeSlots, split]
      exact MemberSlot.firstFree_append all behind
    exact ofMembers_eq_ok_iff.mpr ⟨by rw [same], by rw [same, all]⟩
  · have same : freeSlots mode grown expected =
        (freeSlots mode members expected).map (MemberSlot.moveTo place) :=
      @MemberSlot.firstFree_inserts mode [] expected members grown place inserts
    exact ofMembers_eq_ok_iff.mpr ⟨by rw [same]; rfl, by rw [same, List.length_map, all]⟩
  · have same : freeSlots mode members (expected.take n) =
        (freeSlots mode members expected).take n := MemberSlot.firstFree_take n
    refine ofMembers_eq_ok_iff.mpr ⟨by rw [same], ?_⟩
    rw [same, List.length_take, List.length_take, all]

/-- The plan of `|a: Option<Int>, b: Int|` for the points of a plane, with a height behind the two
coordinates, with a label before them, and for the first parameter alone. -/
theorem ofMembers_grow_points :
    let x : FieldDef := ⟨"x", .int⟩
    let y : FieldDef := ⟨"y", .int⟩
    let plan : MemberPlan := ⟨.con "Point", [⟨0, "x", .int⟩, ⟨1, "y", .int⟩]⟩
    ofMembers .assignable (.con "Point") [x, y] [.option .int, .int] = .ok plan ∧
      ofMembers .assignable (.con "Point") ([x, y] ++ [⟨"height", .int⟩]) [.option .int, .int] =
        .ok plan ∧
      ofMembers .assignable (.con "Point") [⟨"label", .string⟩, x, y] [.option .int, .int] =
        .ok (plan.moveTo Nat.succ) ∧
      ofMembers .assignable (.con "Point") [x, y] [.option .int] =
        .ok ⟨.con "Point", [⟨0, "x", .int⟩]⟩ := by
  intro x y plan
  have planned : ofMembers .assignable (.con "Point") [x, y] [.option .int, .int] = .ok plan := rfl
  have label : MemberSlot.Inserts .assignable [.option .int, .int] [x, y]
      [⟨"label", .string⟩, x, y] Nat.succ := by
    refine ⟨fun _ _ => Nat.succ_lt_succ, fun i => rfl, fun k member found new => ?_⟩
    cases k with
    | zero =>
        cases found
        decide
    | succ k => exact absurd ⟨k, rfl⟩ new
  obtain ⟨behind, between, fewer⟩ := ofMembers_grow planned
  exact ⟨planned, behind _, between _ _ label, fewer 1⟩

end MemberPlan

end RowQuery
