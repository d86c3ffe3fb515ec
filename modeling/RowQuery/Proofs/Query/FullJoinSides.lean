import RowQuery.Proofs.Query.Lawful

/-!
# Which side a selector's parameter reads

A full join splits its selector twice, over join rows of outer and inner elements and, with the
parameters exchanged, over join rows of inner and outer elements.  Members are matched by type, so
the two halves may come to different answers about a parameter.

* `CarrierMap.memberOf` — the member of the carrier that stands for a parameter.
* `SidesAgree` — each parameter reads the same source in both halves.
* `Lambda.TakesPlainAndOptional` — the selectors that tell the halves apart by optionality alone.
* **`Source.fullOuterJoin_sidesAgree_iff`** — the halves agree, except for such a selector where
  members have to be of exactly the declared type.
* `Source.not_sidesAgree_of_exact` — a full join that is composed although its halves disagree.
-/

namespace RowQuery

/-- The member of the carrier that stands for a parameter. -/
def CarrierMap.memberOf (map : CarrierMap) (id : ParamId) : Option String :=
  match map.get? id with
  | some (.member _ name _) => some name
  | _ => none

/-- **Each parameter reads the same source in both halves.**  The outer element of the left half is
the inner one of the right half. -/
def SidesAgree (selector : Lambda) (left right : CarrierMap) : Prop :=
  ∀ p ∈ selector.params,
    (left.memberOf p.id = some JoinRow.outer ↔ right.memberOf p.id = some JoinRow.inner) ∧
    (left.memberOf p.id = some JoinRow.inner ↔ right.memberOf p.id = some JoinRow.outer)

instance (selector : Lambda) (left right : CarrierMap) :
    Decidable (SidesAgree selector left right) :=
  inferInstanceAs (Decidable (∀ p ∈ selector.params, _ ∧ _))

/-- **Selectors of one plain and one optional parameter** of the same type. -/
def Lambda.TakesPlainAndOptional (f : Lambda) (plain : Ty) : Prop :=
  plain.isOption = false ∧
    (f.paramTys = [plain, plain.option] ∨ f.paramTys = [plain.option, plain])

/-! ## Optional members -/

/-- An optional member fits its own type only. -/
theorem MatchMode.fits_option_iff {mode : MatchMode} {t expected : Ty} :
    mode.fits t.option expected = true ↔ t.option = expected := by
  have bottom : t.option ≠ .never := by
    intro h
    have optional := Ty.isOption_option t
    rw [h] at optional
    cases optional
  cases mode with
  | exact => simp [fits]
  | assignable => simp [fits, Ty.isAssignableTo, bottom]

theorem MatchMode.fits_own_option {mode : MatchMode} {t : Ty} :
    mode.fits t t.option = false ↔ mode = .exact ∧ t.isOption = false := by
  cases mode with
  | assignable => simp [fits, Ty.isAssignableTo_option]
  | exact =>
      simp only [fits, beq_eq_false_iff_ne, true_and]
      constructor
      · intro h
        by_contra optional
        rw [Bool.not_eq_false] at optional
        exact h (by rw [Ty.option, if_pos optional])
      · intro plain h
        rw [h, Ty.isOption_option] at plain
        cases plain

/-! ## Two halves -/

/-- Of two parameters, each has the member of its position. -/
theorem CarrierMap.memberOf_ofPlan_pair (carrier : Param) {p q : Param} {a b : MemberSlot}
    {plan : MemberPlan} (distinct : p.id ≠ q.id) (slots : plan.slots = [a, b]) :
    (ofPlan carrier [p, q] plan).memberOf p.id = some a.name ∧
      (ofPlan carrier [p, q] plan).memberOf q.id = some b.name := by
  simp [memberOf, get?, ofPlan, slots, distinct]

/-- The halves agree if both take the members in the order of the parameters, or both do not. -/
private theorem sidesAgree_iff {carrier carrier' p q : Param} {body : Expr} {O I O' I' : Ty}
    {left right : MemberPlan} (distinct : p.id ≠ q.id)
    (hleft : left.slots = [JoinRow.outerSlot O, JoinRow.innerSlot I] ∨
      left.slots = [JoinRow.innerSlot I, JoinRow.outerSlot O])
    (hright : right.slots = [JoinRow.outerSlot O', JoinRow.innerSlot I'] ∨
      right.slots = [JoinRow.innerSlot I', JoinRow.outerSlot O']) :
    SidesAgree ⟨[p, q], body⟩ (.ofPlan carrier [p, q] left) (.ofPlan carrier' [q, p] right) ↔
      (left.slots = [JoinRow.outerSlot O, JoinRow.innerSlot I] ↔
        right.slots = [JoinRow.outerSlot O', JoinRow.innerSlot I']) := by
  have names : JoinRow.outer ≠ JoinRow.inner := by decide
  unfold SidesAgree
  rcases hleft with hleft | hleft <;> rcases hright with hright | hright <;>
    obtain ⟨leftP, leftQ⟩ := CarrierMap.memberOf_ofPlan_pair carrier distinct hleft <;>
    obtain ⟨rightQ, rightP⟩ := CarrierMap.memberOf_ofPlan_pair carrier' distinct.symm hright <;>
    simp [leftP, leftQ, rightP, rightQ, hleft, hright, JoinRow.outerSlot, JoinRow.innerSlot, names,
      names.symm]

/-- No plain type is its own option. -/
private theorem ne_option {t : Ty} (plain : t.isOption = false) : t ≠ t.option := by
  intro h
  rw [h, Ty.isOption_option] at plain
  cases plain

/-- **Where the order of the members differs.**  Both halves are matched; `s` and `t` are the types
of the two parameters. -/
private theorem order_agrees_iff {mode : MatchMode} {s t O I : Ty} {straight straight' : Prop}
    (hleft : straight ∧ mode.fits O s = true ∧ mode.fits I.option t = true ∨
      ¬ straight ∧ mode.fits O s = false ∧ mode.fits I.option s = true ∧ mode.fits O t = true)
    (hright : straight' ∧ mode.fits I t = true ∧ mode.fits O.option s = true ∨
      ¬ straight' ∧ mode.fits I t = false ∧ mode.fits O.option t = true ∧ mode.fits I s = true) :
    (straight ↔ straight') ↔ ¬ (mode = .exact ∧ O = I ∧ O.isOption = false ∧
      ([s, t] = [O, O.option] ∨ [s, t] = [O.option, O])) := by
  simp only [MatchMode.fits_option_iff] at hleft hright
  simp only [List.cons.injEq, and_true]
  rcases hleft with ⟨hs, hOs, rfl⟩ | ⟨hs, hOs, rfl, hOt⟩ <;>
    rcases hright with ⟨hs', hIt, hright⟩ | ⟨hs', hIt, hright, hIs⟩
  · refine iff_of_true (iff_of_true hs hs') ?_
    rintro ⟨-, rfl, plain, ⟨rfl, -⟩ | ⟨-, h⟩⟩
    · exact ne_option plain hright.symm
    · exact ne_option plain h.symm
  · refine iff_of_false (fun h => hs' (h.mp hs)) (not_not_intro ?_)
    obtain ⟨rfl, plain⟩ := MatchMode.fits_own_option.mp hIt
    have hOs : O = s := beq_iff_eq.mp hOs
    have hIs : I = s := beq_iff_eq.mp hIs
    subst hOs hIs
    exact ⟨rfl, rfl, plain, .inl ⟨rfl, rfl⟩⟩
  · refine iff_of_false (fun h => hs (h.mpr hs')) (not_not_intro ?_)
    rw [← hright] at hOs
    obtain ⟨rfl, plain⟩ := MatchMode.fits_own_option.mp hOs
    have hOt : O = t := beq_iff_eq.mp hOt
    have hIt : I = t := beq_iff_eq.mp hIt
    subst hOt hIt
    exact ⟨rfl, rfl, plain, .inr ⟨rfl, rfl⟩⟩
  · refine iff_of_true (iff_of_false hs hs') ?_
    rintro ⟨-, rfl, plain, ⟨h, -⟩ | ⟨-, rfl⟩⟩
    · exact ne_option plain h.symm
    · exact ne_option plain hright.symm

namespace Source

variable {σ : Type} [Source σ] [LawfulSource σ] {ctx : QueryContext}

/-- **The halves of a full join agree** on the source of each parameter, unless members have to be
of exactly the declared type, both sources have the same plain elements, and the selector takes one
of them plain and the other optional. -/
theorem fullOuterJoin_sidesAgree_iff (made : ctx.Made) {session after : Session}
    (reached : ctx.splitter.Reached session.split) {outer inner joined : σ}
    {outerKey innerKey selector : Lambda}
    (composes : (fullOuterJoin outer inner outerKey innerKey selector).exec ctx session =
      (.ok joined, after))
    {state state' : SplitState} (hleft : ctx.splitter.Reached state)
    (hright : ctx.splitter.Reached state') :
    ∃ switched left right, selector.switch = .ok switched ∧
      ((ctx.splitter.carrierMap selector
        (JoinRow.ty (elementTy outer) (elementTy inner).option)).run.run state).1 = .ok left ∧
      ((ctx.splitter.carrierMap switched
        (JoinRow.ty (elementTy inner) (elementTy outer).option)).run.run state').1 = .ok right ∧
      (SidesAgree selector left right ↔
        ¬ (ctx.splitter.options.matchMode = .exact ∧ elementTy outer = elementTy inner ∧
          selector.TakesPlainAndOptional (elementTy outer))) := by
  obtain ⟨switched, exchanged, ⟨left, planned⟩, right, planned'⟩ :=
    planOf_of_fullOuterJoin reached.remembers composes
  obtain ⟨_, -, run, -⟩ := Splitter.carrierMap_run hleft.remembers selector
    (JoinRow.ty (elementTy outer) (elementTy inner).option)
  obtain ⟨_, -, run', -⟩ := Splitter.carrierMap_run hright.remembers switched
    (JoinRow.ty (elementTy inner) (elementTy outer).option)
  obtain ⟨p, q, hparams, rfl⟩ := Lambda.switch_eq_ok_iff.mp exchanged
  have types : selector.paramTys = [p.ty, q.ty] := by rw [Lambda.paramTys, hparams]; rfl
  rw [planned] at run
  rw [planned'] at run'
  refine ⟨_, _, _, exchanged, congrArg Prod.fst run, congrArg Prod.fst run', ?_⟩
  obtain ⟨check, -, matched⟩ := (made.planOf_joinRow types).mp planned
  obtain ⟨-, -, matched'⟩ := (made.planOf_joinRow (s := q.ty) (t := p.ty) rfl).mp planned'
  have distinct : p.id ≠ q.id := by
    have nodup := (Lambda.checkParams_eq_ok_iff.mp check).2.1
    rw [hparams] at nodup
    simpa using nodup
  have order : ∀ O I, [JoinRow.innerSlot I, JoinRow.outerSlot O] ≠
      [JoinRow.outerSlot O, JoinRow.innerSlot I] := by
    simp [JoinRow.innerSlot, JoinRow.outerSlot]
  obtain ⟨params, body⟩ := selector
  subst hparams
  refine (sidesAgree_iff distinct (matched.imp And.left And.left)
    (matched'.imp And.left And.left)).trans ?_
  refine order_agrees_iff (matched.imp id ?_) (matched'.imp id ?_)
  · rintro ⟨slots, fits⟩
    exact ⟨by rw [slots]; exact order _ _, fits⟩
  · rintro ⟨slots, fits⟩
    exact ⟨by rw [slots]; exact order _ _, fits⟩

/-! ## Halves that disagree -/

/-- A context in which members have to be of exactly the declared type. -/
def exactContext : QueryContext where
  splitter := {
    schema := ⟨[Grouping.definition, JoinRow.definition]⟩
    options := { matchMode := .exact } }
  callDepth := 8

theorem made_exactContext : exactContext.Made :=
  ⟨{}, { split := { matchMode := .exact } }, 8, rfl⟩

/-- Whole numbers as a sequence. -/
def numbers (rows : List Int64) : Sequence := ⟨.int, rows.map .int⟩

/-- `|n| n`. -/
def numberKey : Lambda :=
  let n : Param := ⟨⟨100⟩, "n", .int⟩
  ⟨[n], .param n⟩

/-- `|a: Int, b: Option<Int>| (a, b)`. -/
def numberPair : Lambda :=
  let a : Param := ⟨⟨101⟩, "a", .int⟩
  let b : Param := ⟨⟨102⟩, "b", Ty.int.option⟩
  ⟨[a, b], .tuple [.param a, .param b]⟩

/-- The join of two sequences of numbers is composed. -/
theorem fullOuterJoin_numbers :
    ∃ after, (fullOuterJoin (numbers [1, 2]) (numbers [2, 3]) numberKey numberKey
        numberPair).exec exactContext {} =
      (.ok ⟨.tuple [.int, Ty.int.option], [.tuple [.int 1, .null], .tuple [.int 2, .int 2],
        .tuple [.int 3, .null]]⟩, after) :=
  ⟨_, rfl⟩

/-- What is said of the halves, for the join of two sequences of numbers. -/
theorem sidesAgree_iff_numbers :
    ∃ switched left right, numberPair.switch = .ok switched ∧
      ((exactContext.splitter.carrierMap numberPair
        (JoinRow.ty .int Ty.int.option)).run.run {}).1 = .ok left ∧
      ((exactContext.splitter.carrierMap switched
        (JoinRow.ty .int Ty.int.option)).run.run {}).1 = .ok right ∧
      (SidesAgree numberPair left right ↔
        ¬ (exactContext.splitter.options.matchMode = .exact ∧ Ty.int = .int ∧
          numberPair.TakesPlainAndOptional .int)) := by
  obtain ⟨_, composes⟩ := fullOuterJoin_numbers
  exact fullOuterJoin_sidesAgree_iff made_exactContext (.start {}) composes (.start {}) (.start {})

/-- **A full join whose halves disagree.**  The first parameter reads the outer source in the left
half and the inner one in the right half: the number without an outer match stands in the column of
the outer numbers. -/
theorem not_sidesAgree_of_exact :
    ∃ after switched left right,
      (fullOuterJoin (numbers [1, 2]) (numbers [2, 3]) numberKey numberKey numberPair).exec
          exactContext {} =
        (.ok ⟨.tuple [.int, Ty.int.option], [.tuple [.int 1, .null], .tuple [.int 2, .int 2],
          .tuple [.int 3, .null]]⟩, after) ∧
      numberPair.switch = .ok switched ∧
      ((exactContext.splitter.carrierMap numberPair
        (JoinRow.ty .int Ty.int.option)).run.run {}).1 = .ok left ∧
      ((exactContext.splitter.carrierMap switched
        (JoinRow.ty .int Ty.int.option)).run.run {}).1 = .ok right ∧
      ¬ SidesAgree numberPair left right := by
  obtain ⟨after, composes⟩ := fullOuterJoin_numbers
  exact ⟨after, _, _, _, composes, rfl, rfl, rfl, by decide⟩

end Source

end RowQuery
