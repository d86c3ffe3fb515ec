import RowQuery.Proofs.Matching.FirstFree
import RowQuery.Proofs.Registrations
import RowQuery.Proofs.Split.Plans
import RowQuery.Query.OuterJoin

/-!
# Matching the members of join rows

A join row has two members, and a selector has two parameters.  Each parameter gets one of the
members: the first parameter gets the first member that fits it, the second one what is left.

* `MemberPlan.ofMembers_pair` — which of two members two types get.
* `QueryContext.Made` — the contexts of schemas: they know the carriers of joins.
* `QueryContext.Made.members_joinRow`, `QueryContext.Made.members_grouping` — the members of the
  carriers.
* **`QueryContext.Made.planOf_joinRow`** — the plans for functions of two parameters over join rows.
-/

namespace RowQuery

/-- **Two types get two members**, the first type the first member that fits it. -/
theorem MemberPlan.ofMembers_pair {mode : MatchMode} {carrier : Ty} {a b : FieldDef} {s t : Ty}
    {plan : MemberPlan} :
    ofMembers mode carrier [a, b] [s, t] = .ok plan ↔
      plan.carrier = carrier ∧
        (plan.slots = [⟨0, a.name, a.ty⟩, ⟨1, b.name, b.ty⟩] ∧
            mode.fits a.ty s = true ∧ mode.fits b.ty t = true ∨
          plan.slots = [⟨1, b.name, b.ty⟩, ⟨0, a.name, a.ty⟩] ∧
            mode.fits a.ty s = false ∧ mode.fits b.ty s = true ∧ mode.fits a.ty t = true) := by
  have members : MemberSlot.ofMembers [a, b] = [⟨0, a.name, a.ty⟩, ⟨1, b.name, b.ty⟩] := rfl
  obtain ⟨_, slots⟩ := plan
  rw [ofMembers_eq_ok_iff, freeSlots, members]
  simp only [MemberSlot.firstFree, MemberSlot.canServe, List.find?_cons, List.find?_nil, mk.injEq]
  cases mode.fits a.ty s <;> cases mode.fits b.ty s <;>
    cases mode.fits a.ty t <;> cases mode.fits b.ty t <;> simp

/-! ## Contexts of schemas -/

namespace QueryContext

/-- **The contexts of schemas.** -/
def Made (ctx : QueryContext) : Prop :=
  ∃ schema config callDepth, ofSchema schema config callDepth = .ok ctx

variable {ctx : QueryContext}

/-- The carriers of joins are defined. -/
theorem Made.find? (made : ctx.Made) :
    ctx.schema.find? Grouping.name = some Grouping.definition ∧
      ctx.schema.find? JoinRow.name = some JoinRow.definition := by
  obtain ⟨schema, config, callDepth, h⟩ := made
  obtain ⟨full, hfull, h⟩ := bind_eq_ok_iff.mp h
  cases h
  obtain ⟨grouped, hgrouped, hjoined⟩ := bind_eq_ok_iff.mp hfull
  exact ⟨Schema.find?_define_of_find? hjoined (Schema.find?_define_self hgrouped),
    Schema.find?_define_self hjoined⟩

theorem Made.members_joinRow (made : ctx.Made) (O I : Ty) :
    ctx.schema.members (JoinRow.ty O I) = .ok [⟨JoinRow.outer, O⟩, ⟨JoinRow.inner, I⟩] := by
  have found := made.find?.2
  simp only [Schema.members, JoinRow.ty, Ty.struct, Ty.conName?, found]
  rfl

theorem Made.members_grouping (made : ctx.Made) (O I : Ty) :
    ctx.schema.members (Grouping.ty O I) = .ok [⟨Grouping.outer, O⟩, ⟨Grouping.group, .list I⟩] := by
  have found := made.find?.1
  simp only [Schema.members, Grouping.ty, Ty.struct, Ty.conName?, found]
  rfl

end QueryContext

/-! ## Plans over join rows -/

namespace JoinRow

/-- The member of the outer element. -/
def outerSlot (O : Ty) : MemberSlot := ⟨0, outer, O⟩

/-- The member of the inner element. -/
def innerSlot (I : Ty) : MemberSlot := ⟨1, inner, I⟩

end JoinRow

/-- **The plans for functions of two parameters over join rows.**  The members stand in the order
of the parameters, or the other way round if only the inner one fits the first parameter. -/
theorem QueryContext.Made.planOf_joinRow {ctx : QueryContext} (made : ctx.Made) {f : Lambda}
    {s t O I : Ty} (types : f.paramTys = [s, t]) {plan : MemberPlan} :
    ctx.splitter.planOf f (JoinRow.ty O I) = .ok plan ↔
      f.checkParams = .ok () ∧ plan.carrier = JoinRow.ty O I ∧
        (plan.slots = [JoinRow.outerSlot O, JoinRow.innerSlot I] ∧
            ctx.splitter.options.matchMode.fits O s = true ∧
            ctx.splitter.options.matchMode.fits I t = true ∨
          plan.slots = [JoinRow.innerSlot I, JoinRow.outerSlot O] ∧
            ctx.splitter.options.matchMode.fits O s = false ∧
            ctx.splitter.options.matchMode.fits I s = true ∧
            ctx.splitter.options.matchMode.fits O t = true) := by
  have members : ctx.splitter.schema.members (JoinRow.ty O I) =
      .ok [⟨JoinRow.outer, O⟩, ⟨JoinRow.inner, I⟩] := made.members_joinRow O I
  have compute : ctx.splitter.computePlan (JoinRow.ty O I) f.paramTys =
      MemberPlan.ofMembers ctx.splitter.options.matchMode (JoinRow.ty O I)
        [⟨JoinRow.outer, O⟩, ⟨JoinRow.inner, I⟩] [s, t] := by
    rw [Splitter.computePlan, members, types]
    rfl
  rw [Splitter.planOf, bind_eq_ok_iff, compute, MemberPlan.ofMembers_pair]
  constructor
  · rintro ⟨_, check, chosen⟩
    exact ⟨check, chosen⟩
  · rintro ⟨check, chosen⟩
    exact ⟨(), check, chosen⟩

end RowQuery
