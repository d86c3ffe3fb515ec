import Mathlib.Data.List.FinRange
import Mathlib.Data.List.Sort
import RowQuery.Proofs.Matching.FirstFree

/-!
# Matching by equal types

If a member fits only its own type, then types do not take each other's members.  Each type has the
members of its own, and its occurrences get them one after the other.  So matching fails only for
lack of members, and what it gives does not depend on how different types are mixed.

* `MemberSlot.freeOf` — the members of a type that are not claimed; each choice of that type takes
  the first of them, and no other choice takes one.
* `MemberSlot.length_firstFree_exact_iff`, `MemberSlot.zip_firstFree_exact` — when all types get
  members, and which.
* `MemberPlan.slotsFor` — the members that the occurrences of a type get.
* `Stable` — rearrangements that leave equal types in their order.
* **`MemberPlan.ofMembers_exact`** — when there is a plan, which one, and what becomes of it if the
  types are rearranged.
-/

namespace RowQuery

namespace MemberSlot

variable {members : List FieldDef} {claimed : List Nat} {expected : List Ty}

/-- **The members of a type that are not claimed**, in the order of their declaration. -/
def freeOf (members : List FieldDef) (claimed : List Nat) (t : Ty) : List MemberSlot :=
  (ofMembers members).filter (canServe .exact claimed t)

/-- The next member for a type. -/
theorem find?_exact (t : Ty) :
    (ofMembers members).find? (canServe .exact claimed t) = (freeOf members claimed t).head? :=
  List.head?_filter.symm

/-- At first, all members of a type are free. -/
theorem freeOf_nil (t : Ty) : freeOf members [] t = candidates .exact (ofMembers members) t :=
  List.filter_congr fun slot _ => by simp [canServe]

theorem of_mem_freeOf {t : Ty} {slot : MemberSlot} (h : slot ∈ freeOf members claimed t) :
    slot ∈ ofMembers members ∧ slot.ty = t := by
  obtain ⟨member, serves⟩ := List.mem_filter.mp h
  exact ⟨member, eq_of_beq (canServe_iff.mp serves).1⟩

/-- **One choice takes the first free member of its type** and leaves those of other types. -/
theorem freeOf_cons {t : Ty} {slot : MemberSlot} {rest : List MemberSlot}
    (h : freeOf members claimed t = slot :: rest) (u : Ty) :
    freeOf members (slot.index :: claimed) u =
      if u = t then rest else freeOf members claimed u := by
  have fewer : freeOf members (slot.index :: claimed) u =
      (freeOf members claimed u).filter fun other => other.index ≠ slot.index := by
    rw [freeOf, freeOf, List.filter_filter]
    refine List.filter_congr fun other _ => ?_
    rw [Bool.eq_iff_iff, Bool.and_eq_true, canServe_iff, canServe_iff, List.mem_cons, not_or,
      decide_eq_true_iff]
    exact and_left_comm
  have first : slot ∈ freeOf members claimed t := h ▸ List.mem_cons_self
  rw [fewer]
  split
  case isTrue same =>
    have sorted : (slot :: rest).Pairwise fun a b => a.index < b.index :=
      h ▸ (pairwise_ofMembers members).filter _
    rw [same, h, List.filter_cons_of_neg (by simp), List.filter_eq_self]
    intro other hother
    have later := (List.pairwise_cons.mp sorted).1 other hother
    exact decide_eq_true (Nat.ne_of_gt later)
  case isFalse apart =>
    rw [List.filter_eq_self]
    intro other hother
    obtain ⟨member, ty⟩ := of_mem_freeOf hother
    obtain ⟨member', ty'⟩ := of_mem_freeOf first
    refine decide_eq_true fun same => apart ?_
    rw [mem_ofMembers_iff, same, mem_ofMembers_iff.mp member', Option.some.injEq,
      FieldDef.mk.injEq] at member
    rw [← ty, ← ty', member.2]

/-- **All types get members** exactly if there are enough of each. -/
theorem length_firstFree_exact_iff :
    (firstFree .exact (ofMembers members) claimed expected).length = expected.length ↔
      ∀ t, expected.count t ≤ (freeOf members claimed t).length := by
  induction expected generalizing claimed with
  | nil => simp [firstFree]
  | cons t rest ih =>
      rw [firstFree, find?_exact]
      cases free : freeOf members claimed t with
      | nil =>
          constructor
          · rintro ⟨⟩
          · intro enough
            have none := enough t
            rw [free, List.count_cons_self] at none
            cases none
      | cons slot others =>
          have left := freeOf_cons free
          rw [List.head?_cons, List.length_cons, List.length_cons, Nat.add_right_cancel_iff, ih]
          refine forall_congr' fun u => ?_
          rw [left, List.count_cons]
          by_cases same : u = t
          · subst same
            simp [free]
          · simp [same, Ne.symm same]

/-- **The occurrences of a type get its members**, one after the other. -/
theorem zip_firstFree_exact
    (all : (firstFree .exact (ofMembers members) claimed expected).length = expected.length)
    (t : Ty) :
    ((expected.zip (firstFree .exact (ofMembers members) claimed expected)).filter
        fun x => x.1 == t).map Prod.snd =
      (freeOf members claimed t).take (expected.count t) := by
  induction expected generalizing claimed with
  | nil => simp
  | cons u rest ih =>
      rw [firstFree, find?_exact] at all ⊢
      cases free : freeOf members claimed u with
      | nil => simp [free] at all
      | cons slot others =>
          have left := freeOf_cons free t
          simp only [free, List.head?_cons, List.length_cons, Nat.add_right_cancel_iff] at all
          have tail := ih all
          rw [left] at tail
          simp only [List.head?_cons, List.zip_cons_cons, List.filter_cons, List.count_cons]
          by_cases same : u = t
          · subst same
            simp only [beq_self_eq_true, if_true] at tail ⊢
            rw [List.map_cons, tail, free, List.take_succ_cons]
          · simp only [beq_iff_eq, same, Ne.symm same, if_false, Nat.add_zero] at tail ⊢
            exact tail

end MemberSlot

/-! ## Rearranged types -/

/-- **A stable rearrangement** of types: those that are equal stay in their order. -/
def Stable {n : Nat} (types : Fin n → Ty) (σ : Equiv.Perm (Fin n)) : Prop :=
  ∀ i j, i < j → types (σ i) = types (σ j) → σ i < σ j

/-- What belongs to one type is rearranged to itself. -/
theorem Stable.filter_ofFn {n : Nat} {types : Fin n → Ty} {σ : Equiv.Perm (Fin n)}
    (stable : Stable types σ) {α : Type} (values : Fin n → α) (t : Ty) :
    (List.ofFn fun i => (types (σ i), values (σ i))).filter (fun x => x.1 == t) =
      (List.ofFn fun i => (types i, values i)).filter fun x => x.1 == t := by
  have positions : ((List.finRange n).filter fun i => types (σ i) == t).map σ =
      (List.finRange n).filter fun i => types i == t := by
    refine List.Pairwise.eq_of_mem_iff (r := (· < ·)) ?_ ((List.pairwise_lt_finRange n).filter _) ?_
    · rw [List.pairwise_map]
      refine ((List.pairwise_lt_finRange n).filter _).imp_of_mem fun hi hj hij => ?_
      have left := eq_of_beq (List.mem_filter.mp hi).2
      have right := eq_of_beq (List.mem_filter.mp hj).2
      exact stable _ _ hij (left.trans right.symm)
    · intro k
      simp only [List.mem_map, List.mem_filter, List.mem_finRange, true_and]
      constructor
      · rintro ⟨i, hi, rfl⟩
        exact hi
      · intro hk
        refine ⟨σ.symm k, ?_, σ.apply_symm_apply k⟩
        rwa [σ.apply_symm_apply]
  rw [List.ofFn_eq_map, List.ofFn_eq_map, List.filter_map, List.filter_map]
  calc
    _ = (((List.finRange n).filter fun i => types (σ i) == t).map σ).map
        fun i => (types i, values i) := (List.map_map ..).symm
    _ = _ := by rw [positions]; rfl

/-- Pairs are determined by their first parts and by the second parts that belong to each. -/
theorem eq_of_filter_eq {α β : Type} [DecidableEq α] {xs ys : List (α × β)}
    (keys : xs.map Prod.fst = ys.map Prod.fst)
    (values : ∀ a, (xs.filter fun x => x.1 == a).map Prod.snd =
      (ys.filter fun x => x.1 == a).map Prod.snd) : xs = ys := by
  induction xs generalizing ys with
  | nil => exact (List.map_eq_nil_iff.mp keys.symm).symm
  | cons x xs ih =>
      cases ys with
      | nil => cases keys
      | cons y ys =>
          obtain ⟨a, b⟩ := x
          obtain ⟨a', b'⟩ := y
          simp only [List.map_cons, List.cons.injEq] at keys
          obtain ⟨rfl, keys⟩ := keys
          have here := values a
          simp only [List.filter_cons, beq_self_eq_true, if_true, List.map_cons,
            List.cons.injEq] at here
          obtain ⟨rfl, here⟩ := here
          refine congrArg _ (ih keys fun c => ?_)
          by_cases same : a = c
          · exact same ▸ here
          · have there := values c
            simpa only [List.filter_cons, beq_iff_eq, same, if_false] using there

theorem zip_ofFn {α β : Type} {n : Nat} (f : Fin n → α) (g : Fin n → β) :
    (List.ofFn f).zip (List.ofFn g) = List.ofFn fun i => (f i, g i) := by
  rw [List.ofFn_eq_map, List.ofFn_eq_map, List.ofFn_eq_map, List.zip_map']

/-! ## Plans -/

namespace MemberPlan

/-- **The members that the occurrences of a type get**, in order. -/
def slotsFor (plan : MemberPlan) (expected : List Ty) (t : Ty) : List MemberSlot :=
  ((expected.zip plan.slots).filter fun x => x.1 == t).map Prod.snd

variable {carrier : Ty} {members : List FieldDef} {expected : List Ty}

/-- **There is a plan** exactly if there are enough members of each type. -/
theorem exists_ofMembers_exact_iff :
    (∃ plan, ofMembers .exact carrier members expected = .ok plan) ↔
      ∀ t, expected.count t ≤ (members.map (·.ty)).count t := by
  have enough (t : Ty) :
      (MemberSlot.freeOf members [] t).length = (members.map (·.ty)).count t := by
    rw [MemberSlot.freeOf_nil, MemberSlot.length_candidates, List.count, List.countP_map]
    rfl
  simp only [← enough]
  rw [← MemberSlot.length_firstFree_exact_iff]
  constructor
  · rintro ⟨plan, h⟩
    exact (ofMembers_eq_ok_iff.mp h).2
  · exact fun all => ⟨_, ofMembers_eq_ok_iff.mpr ⟨rfl, all⟩⟩

/-- **The occurrences of a type** get its members in the order of their declaration. -/
theorem slotsFor_ofMembers_exact {plan : MemberPlan}
    (h : ofMembers .exact carrier members expected = .ok plan) (t : Ty) :
    plan.slotsFor expected t =
      (MemberSlot.candidates .exact (MemberSlot.ofMembers members) t).take (expected.count t) := by
  obtain ⟨rfl, all⟩ := ofMembers_eq_ok_iff.mp h
  rw [← MemberSlot.freeOf_nil]
  exact MemberSlot.zip_firstFree_exact all t

/-- **Rearranged types** get their members rearranged. -/
theorem ofMembers_exact_rearranged {n : Nat} {types : Fin n → Ty} {slots : Fin n → MemberSlot}
    {σ : Equiv.Perm (Fin n)} (stable : Stable types σ)
    (h : ofMembers .exact carrier members (List.ofFn types) = .ok ⟨carrier, List.ofFn slots⟩) :
    ofMembers .exact carrier members (List.ofFn (types ∘ σ)) =
      .ok ⟨carrier, List.ofFn (slots ∘ σ)⟩ := by
  have counts := (σ.ofFn_comp_perm types).count_eq
  obtain ⟨plan, planned⟩ : ∃ plan,
      ofMembers .exact carrier members (List.ofFn (types ∘ σ)) = .ok plan := by
    rw [exists_ofMembers_exact_iff]
    simp only [counts]
    exact exists_ofMembers_exact_iff.mp ⟨_, h⟩
  have length : plan.slots.length = (List.ofFn (types ∘ σ)).length :=
    (serves_of_ofMembers planned).fitting.length_eq.symm
  have pairs : (List.ofFn (types ∘ σ)).zip plan.slots =
      (List.ofFn (types ∘ σ)).zip (List.ofFn (slots ∘ σ)) := by
    refine eq_of_filter_eq ?_ fun t => ?_
    · rw [List.map_fst_zip (Nat.le_of_eq length.symm), List.map_fst_zip (by simp)]
    · have before := slotsFor_ofMembers_exact h t
      rw [← counts, ← slotsFor_ofMembers_exact planned, slotsFor, slotsFor, zip_ofFn,
        ← stable.filter_ofFn] at before
      rw [zip_ofFn, ← before]
      rfl
  have same := congrArg (List.map Prod.snd) pairs
  rw [List.map_snd_zip (Nat.le_of_eq length), List.map_snd_zip (by simp)] at same
  rw [planned, ← same, ← carrier_of_ofMembers planned]

/-- **Matching by equal types.**  There is a plan if no type is expected more often than there are
members of it, and only then.  The occurrences of a type get its members one by one, in the order of
their declaration.  If the types are rearranged with equal ones in their order, then the members are
rearranged in the same way. -/
theorem ofMembers_exact (carrier : Ty) (members : List FieldDef) :
    (∀ expected, (∃ plan, ofMembers .exact carrier members expected = .ok plan) ↔
      ∀ t, expected.count t ≤ (members.map (·.ty)).count t) ∧
    (∀ expected plan, ofMembers .exact carrier members expected = .ok plan → ∀ t,
      plan.slotsFor expected t =
        ((MemberSlot.ofMembers members).filter fun slot => slot.ty == t).take (expected.count t)) ∧
    ∀ (n : Nat) (types : Fin n → Ty) (slots : Fin n → MemberSlot) (σ : Equiv.Perm (Fin n)),
      Stable types σ →
      ofMembers .exact carrier members (List.ofFn types) = .ok ⟨carrier, List.ofFn slots⟩ →
      ofMembers .exact carrier members (List.ofFn (types ∘ σ)) =
        .ok ⟨carrier, List.ofFn (slots ∘ σ)⟩ := by
  refine ⟨fun expected => exists_ofMembers_exact_iff, fun expected plan h t => ?_, ?_⟩
  · exact slotsFor_ofMembers_exact h t
  · intro n types slots σ stable h
    exact ofMembers_exact_rearranged stable h

end MemberPlan

end RowQuery
