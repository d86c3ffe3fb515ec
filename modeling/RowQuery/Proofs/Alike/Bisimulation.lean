import RowQuery.Proofs.Alike.Evaluation

/-!
# Bisimulations of values

What can be told apart by looking into values, comparing them and calling them.  A relation that
none of these can break is a bisimulation; being alike is one.

* `Value.Matches` — the outermost layer of two values: equal data, or paired closures of one arity.
* `Value.Bisimulation` — relations between the values of two runs that every observation keeps.
* **`Value.Alike.bisimulation`** — being alike is a bisimulation.
* `Value.Bisimulation.eq_of_closureFree` — values without closures are related to themselves only.
-/

namespace RowQuery

namespace Value

/-- **The outermost layer of two values**: equal data with members in the relation, or closures
that are paired and take equally many arguments. -/
def Matches (w : Pairing) (R : Value → Value → Prop) : Value → Value → Prop
  | .tuple as, .tuple bs => List.Forall₂ R as bs
  | .list as, .list bs => List.Forall₂ R as bs
  | .record m as, .record n bs =>
      m = n ∧ List.Forall₂ (fun x y => x.1 = y.1 ∧ R x.2 y.2) as bs
  | .closure i f _, .closure j g _ => w.rel i j ∧ f.arity = g.arity
  | a, b => a = b

/-- **Relations that every observation keeps.**  Related values match layer by layer, are equal in
the same cases, and give related results when they are called on related arguments, then or at any
later time.  A value that both runs share is related to itself. -/
structure Bisimulation (R : Pairing → Value → Value → Prop) : Prop where
  persistent : Persistent R
  shared : ∀ {w : Pairing} {a : Value}, (∀ i ∈ a.closureIds, w.rel i i) → R w a a
  layer : ∀ {w : Pairing} {a b : Value}, R w a b → Matches w (R w) a b
  equal : ∀ {w : Pairing} {a a' b b' : Value}, R w a a' → R w b b' → (a == b) = (a' == b')
  call : ∀ {w v : Pairing} {f g : Value} {args args' : List Value}, R w f g → w ≤ v →
    List.Forall₂ (R v) args args' → ∀ depth : Nat,
      Agree v R ((Lambda.apply depth).value f args) ((Lambda.apply depth).value g args')

/-- **Being alike is a bisimulation.** -/
theorem Alike.bisimulation : Bisimulation Alike where
  persistent := Alike.persistent
  shared := Alike.refl
  layer := by
    intro w a b h
    have same := h
    cases h with
    | tuple => exact tuple_iff.mp same
    | list => exact list_iff.mp same
    | record => exact record_iff.mp same
    | closure paired => exact ⟨paired, rfl⟩
    | _ => rfl
  equal := Alike.same_eq
  call := Alike.call

/-- Lists whose members are related to themselves only are related to themselves only. -/
private theorem eq_of_forall₂ {α : Type} {R : α → α → Prop} {xs ys : List α}
    (h : List.Forall₂ R xs ys) (members : ∀ x ∈ xs, ∀ y, R x y → x = y) : xs = ys := by
  induction h with
  | nil => rfl
  | cons hxy _ ih =>
      have head := members _ List.mem_cons_self _ hxy
      have tail := ih fun x hx => members x (List.mem_cons_of_mem _ hx)
      rw [head, tail]

/-- **A value without closures is related to itself only**, by any bisimulation. -/
theorem Bisimulation.eq_of_closureFree {R : Pairing → Value → Value → Prop} (bisim : Bisimulation R)
    {w : Pairing} {a b : Value} (h : R w a b) (free : a.ClosureFree) : a = b := by
  have layer := bisim.layer h
  clear h
  induction a generalizing b with
  | tuple items ih =>
      rw [closureFree_tuple] at free
      cases b with
      | tuple others =>
          have members : List.Forall₂ (R w) items others := layer
          exact congrArg _ (eq_of_forall₂ members fun v hv u h => ih v hv (free v hv) (bisim.layer h))
      | _ => exact layer
  | list items ih =>
      rw [closureFree_list] at free
      cases b with
      | list others =>
          have members : List.Forall₂ (R w) items others := layer
          exact congrArg _ (eq_of_forall₂ members fun v hv u h => ih v hv (free v hv) (bisim.layer h))
      | _ => exact layer
  | record name fields ih =>
      rw [closureFree_record] at free
      cases b with
      | record name' others =>
          obtain ⟨rfl, members⟩ := layer
          refine congrArg _ (eq_of_forall₂ members fun f hf g h => Prod.ext h.1 ?_)
          exact ih f hf (free f hf) (bisim.layer h.2)
      | _ => exact layer
  | closure => cases free
  | _ => cases b <;> exact layer

end Value

end RowQuery
