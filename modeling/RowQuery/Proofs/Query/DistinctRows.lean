import Mathlib.Data.List.Basic
import RowQuery.Proofs.Alike.Value
import RowQuery.Proofs.FirstMembers

/-!
# Rows without repetition

The union of two lists keeps the first of equal rows.  Equality of values identifies closures by
their numbers alone.  Equal values without closures are the same, and for these the union depends, up
to order, on the members alone.

* `Value.eq_of_beq` — equal values without closures are the same.
* **`distinctBy_perm`** — lists of the same values without closures have the same first members, up
  to order.
-/

namespace RowQuery

/-! ## Values without closures -/

namespace Value

/-- Equal lists of values have the same members, if equal members are the same. -/
private theorem eq_of_sameList {as : List Value}
    (h : ∀ a ∈ as, ∀ {b : Value}, a.same b = true → a = b) {bs : List Value}
    (same : sameList as bs = true) : as = bs := by
  induction as generalizing bs with
  | nil =>
      cases bs with
      | nil => rfl
      | cons b bs => cases same
  | cons a as ih =>
      cases bs with
      | nil => cases same
      | cons b bs =>
          obtain ⟨first, rest⟩ := Bool.and_eq_true_iff.mp same
          rw [h a List.mem_cons_self first,
            ih (fun c hc => h c (List.mem_cons_of_mem a hc)) rest]

/-- Equal lists of fields have the same fields, if equal values of fields are the same. -/
private theorem eq_of_sameFields {as : List (String × Value)}
    (h : ∀ a ∈ as, ∀ {b : Value}, a.2.same b = true → a.2 = b) {bs : List (String × Value)}
    (same : sameFields as bs = true) : as = bs := by
  induction as generalizing bs with
  | nil =>
      cases bs with
      | nil => rfl
      | cons b bs => cases same
  | cons a as ih =>
      obtain ⟨m, a⟩ := a
      cases bs with
      | nil => cases same
      | cons b bs =>
          obtain ⟨n, b⟩ := b
          simp only [sameFields, Bool.and_eq_true, beq_iff_eq] at same
          obtain ⟨⟨rfl, first⟩, rest⟩ := same
          have value : a = b := h (m, a) List.mem_cons_self first
          rw [value, ih (fun c hc => h c (List.mem_cons_of_mem _ hc)) rest]

/-- **Equal values without closures are the same.** -/
theorem eq_of_beq {a b : Value} (free : a.ClosureFree) (h : a == b) : a = b := by
  have same : a.same b = true := h
  clear h
  induction a generalizing b with
  | tuple items ih =>
      cases b with
      | tuple bs =>
          rw [eq_of_sameList (fun v hv => ih v hv (closureFree_tuple.mp free v hv)) same]
      | _ => cases same
  | list items ih =>
      cases b with
      | list bs =>
          rw [eq_of_sameList (fun v hv => ih v hv (closureFree_list.mp free v hv)) same]
      | _ => cases same
  | record name fields ih =>
      cases b with
      | record n bs =>
          obtain ⟨names, rest⟩ := Bool.and_eq_true_iff.mp same
          rw [beq_iff_eq.mp names,
            eq_of_sameFields (fun f hf => ih f hf (closureFree_record.mp free f hf)) rest]
      | _ => cases same
  | closure id f captured => cases free
  | _ => cases b <;> simp_all [Value.same]

end Value

/-- No value without closures is lost. -/
theorem mem_distinctBy {rows : List Value} (free : ∀ v ∈ rows, v.ClosureFree) {v : Value} :
    v ∈ distinctBy id rows ↔ v ∈ rows := by
  refine ⟨mem_of_mem_distinctBy, fun h => ?_⟩
  induction rows with
  | nil => cases h
  | cons row rows ih =>
      rw [distinctBy, List.mem_cons]
      by_cases same : row == v
      · exact .inl (Value.eq_of_beq (free row List.mem_cons_self) same).symm
      · rcases List.mem_cons.mp h with rfl | h
        · exact absurd BEq.rfl same
        · have later := ih (fun u hu => free u (List.mem_cons_of_mem row hu)) h
          exact .inr (List.mem_filter.mpr ⟨later, by simp [same]⟩)

/-- **The first members depend, up to order, on the members alone**, if these hold no closures. -/
theorem distinctBy_perm {rows rows' : List Value} (free : ∀ v ∈ rows, v.ClosureFree)
    (members : ∀ v, v ∈ rows ↔ v ∈ rows') :
    (distinctBy id rows).Perm (distinctBy id rows') := by
  have free' : ∀ v ∈ rows', v.ClosureFree := fun v hv => free v ((members v).mpr hv)
  refine (List.perm_ext_iff_of_nodup (nodup_distinctBy _) (nodup_distinctBy _)).mpr fun v => ?_
  rw [mem_distinctBy free, mem_distinctBy free', members]

end RowQuery
