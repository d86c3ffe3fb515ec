import RowQuery.Eval.Basic
import RowQuery.Proofs.Alike.Value

/-!
# Operators on alike values

What operators make of values is alike if the values are.  Operators look into data, compare
closures by identity and show what they do not take, and alike values agree in all three.

* `Value.Alike.member`, `Value.Alike.unary`, `Value.Alike.decided?`, `Value.Alike.binary` — one
  lemma for each kind of operator.
* `Agree.lift`, `Agree.fault`, `Agree.newClosure` — the same within evaluations.
-/

namespace RowQuery

namespace Outcomes

variable {ε α : Type} {R : α → α → Prop}

/-- One outcome stands beside itself if its result does. -/
theorem refl (h : ∀ a, R a a) : ∀ r : Except ε α, Outcomes R r r
  | .ok a => h a
  | .error _ => rfl

theorem mapM {σ τ β : Type} {S : α → β → Prop} {f : σ → Except ε α} {g : τ → Except ε β}
    {xs : List σ} {ys : List τ} (h : List.Forall₂ (fun x y => Outcomes S (f x) (g y)) xs ys) :
    Outcomes (List.Forall₂ S) (xs.mapM f) (ys.mapM g) := by
  induction h with
  | nil => exact List.Forall₂.nil
  | cons hxy _ ih =>
      rw [List.mapM_cons, List.mapM_cons]
      exact hxy.bind fun a b hab => ih.bind fun as bs hs => List.Forall₂.cons hab hs

end Outcomes

namespace Value.Alike

variable {w : Pairing} {a a' b b' : Value}

/-- What an operation does not take is reported alike. -/
theorem mismatch_eq (op : String) (h : Alike w a a') :
    EvalError.mismatch op a = EvalError.mismatch op a' := by
  rw [EvalError.mismatch, EvalError.mismatch, h.text_eq]

theorem member (name : String) (h : Alike w a a') :
    Outcomes (Alike w) (a.member name) (a'.member name) := by
  have mismatch := h.mismatch_eq "member access"
  cases h with
  | null => exact .null
  | record n names_eq members =>
      have found := lookup_rel (fields_iff.mpr ⟨names_eq, members⟩) name
      simp only [Value.member]
      generalize List.lookup name _ = found₁ at found ⊢
      generalize List.lookup name _ = found₂ at found ⊢
      cases found with
      | none => exact rfl
      | some h => exact h
  | _ => exact mismatch

theorem field? (name : String) (h : Alike w a a') :
    Option.Rel (Alike w) (a.field? name) (a'.field? name) := by
  cases h with
  | record n names_eq members => exact lookup_rel (fields_iff.mpr ⟨names_eq, members⟩) name
  | _ => exact .none

theorem asCondition (h : Alike w a a') :
    Outcomes (fun x y => x = y) a.asCondition a'.asCondition := by
  have mismatch := h.mismatch_eq "if"
  cases h with
  | null => exact rfl
  | bool => exact rfl
  | _ => exact mismatch

theorem unary (op : UnaryOp) (h : Alike w a a') :
    Outcomes (Alike w) (op.apply a) (op.apply a') := by
  have mismatch := h.mismatch_eq op.symbol
  cases h with
  | null => cases op <;> exact .null
  | bool b =>
      cases op with
      | not => exact .bool _
      | neg => exact mismatch
  | int n =>
      cases op with
      | not => exact mismatch
      | neg =>
          refine (Outcomes.refl (R := fun x y => x = y) (fun _ => rfl) (negateWord n)).bind ?_
          rintro x y rfl
          exact .int x
  | _ => cases op <;> exact mismatch

theorem arith (op : ArithOp) (ha : Alike w a a') (hb : Alike w b b') :
    Outcomes (Alike w) (op.apply a b) (op.apply a' b') := by
  have mismatch := ha.mismatch_eq op.symbol
  have mismatch' := hb.mismatch_eq op.symbol
  cases ha with
  | null => exact .null
  | int n =>
      cases hb with
      | null => exact .null
      | int m =>
          refine (Outcomes.refl (R := fun x y => x = y) (fun _ => rfl) (op.onWords n m)).bind ?_
          rintro x y rfl
          exact .int x
      | _ => exact mismatch'
  | _ =>
      cases hb with
      | null => exact .null
      | _ => exact mismatch

theorem order (op : OrderOp) (ha : Alike w a a') (hb : Alike w b b') :
    Outcomes (Alike w) (op.apply a b) (op.apply a' b') := by
  have mismatch := ha.mismatch_eq op.symbol
  cases ha with
  | null => exact .bool _
  | int n =>
      cases hb with
      | null => exact .bool _
      | int m => exact .bool _
      | _ => exact mismatch
  | str s =>
      cases hb with
      | null => exact .bool _
      | str t => exact .bool _
      | _ => exact mismatch
  | _ =>
      cases hb with
      | null => exact .bool _
      | _ => exact mismatch

/-- Results that the left operand decides are alike, and so is whether it decides. -/
theorem decided? (op : BinaryOp) (h : Alike w a a') :
    Outcomes (Option.Rel (Alike w)) (op.decided? a) (op.decided? a') := by
  have mismatch := h.mismatch_eq op.symbol
  have same := h
  cases op with
  | and =>
      cases h with
      | bool b =>
          cases b with
          | false => exact .some (.bool false)
          | true => exact .none
      | _ => exact mismatch
  | or =>
      cases h with
      | bool b =>
          cases b with
          | false => exact .none
          | true => exact .some (.bool true)
      | _ => exact mismatch
  | coalesce =>
      cases h with
      | null => exact .none
      | _ => exact .some same
  | _ => exact .none

/-- **Operators of two operands respect alikeness.** -/
theorem binary (op : BinaryOp) (ha : Alike w a a') (hb : Alike w b b') :
    Outcomes (Alike w) (op.apply a b) (op.apply a' b') := by
  have mismatch := hb.mismatch_eq op.symbol
  cases op with
  | arith op =>
      have result := ha.arith op hb
      have textLeft := ha.render_eq
      have textRight := hb.render_eq
      cases op with
      | add =>
          cases ha with
          | str s =>
              simp only [BinaryOp.apply, textRight]
              exact .str _
          | _ =>
              cases hb with
              | str s =>
                  simp only [BinaryOp.apply, textLeft]
                  exact .str _
              | _ => exact result
      | _ => exact result
  | order op => exact ha.order op hb
  | eq =>
      have same : (a == b) = (a' == b') := ha.same_eq hb
      simp only [BinaryOp.apply, same]
      exact .bool _
  | ne =>
      have same : (a == b) = (a' == b') := ha.same_eq hb
      simp only [BinaryOp.apply, bne, same]
      exact .bool _
  | coalesce => exact hb
  | _ =>
      cases hb with
      | bool b => exact .bool b
      | _ => exact mismatch

end Value.Alike

/-! ## Steps of evaluation -/

namespace Agree

variable {α β : Type} {w : Pairing} {R : Pairing → α → β → Prop}

theorem fault {e e' : EvalError} (h : e = e') :
    Agree w R (EvalM.fault e : EvalM α) (EvalM.fault e') :=
  h ▸ Agree.throw _

/-- Operations on values that agree, as computations. -/
theorem lift : ∀ {r : Except EvalError α} {s : Except EvalError β}, Outcomes (R w) r s →
    Agree w R (EvalM.lift r) (EvalM.lift s)
  | .ok _, .ok _, h => Agree.pure h
  | .error _, .error _, h => Agree.fault h

/-- **Two new closures** are paired. -/
theorem newClosure : Agree w Pairing.rel EvalM.newClosure EvalM.newClosure :=
  ⟨1, rfl, rfl, w.grow_rel_next⟩

end Agree

end RowQuery
