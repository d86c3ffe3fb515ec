import RowQuery.Proofs.ParamOrder.Permutations
import RowQuery.Proofs.Scoping

/-!
# Calls of reordered functions

A reordered function keeps its body, and its body reads its arguments by the ids of the parameters.
So it does what the function does, if each argument moves along with its parameter.

* `membersAt_zip`, `Env.lookup_bind_membersAt` — parameters and arguments that are reordered
  together bind the same.
* `Moved` — arguments that move along with their parameters: what the reordered function takes at
  position `i` stands at position `order[i]` for the function.
* `existsUnique_moved` — there is one way to move them back.
* **`Lambda.call_membersAt`** — calls of the two functions agree.
* **`Lambda.call_permute`** — the same for the function that reordering gives, whatever the number
  of arguments.
-/

namespace RowQuery

/-! ## Bindings -/

/-- Lists that are reordered together stay paired. -/
theorem membersAt_zip {α β : Type} {xs : List α} {ys : List β} {order : List Nat}
    (hxs : ∀ i ∈ order, i < xs.length) (hys : ∀ i ∈ order, i < ys.length) :
    (membersAt xs order).zip (membersAt ys order) = membersAt (xs.zip ys) order := by
  induction order with
  | nil => rfl
  | cons i rest ih =>
      obtain ⟨inside, hxs⟩ := List.forall_mem_cons.mp hxs
      obtain ⟨inside', hys⟩ := List.forall_mem_cons.mp hys
      have both : i < (xs.zip ys).length := by
        rw [List.length_zip]
        exact Nat.lt_min.mpr ⟨inside, inside'⟩
      rw [membersAt_cons inside, membersAt_cons inside', membersAt_cons both, List.zip_cons_cons,
        ih hxs hys, List.getElem_zip]

/-- **Parameters that are reordered with their arguments bind the same**, if their ids differ. -/
theorem Env.lookup_bind_membersAt (env : Env) {params : List Param} {args : List Value}
    {order : List Nat} (distinct : (params.map (·.id)).Nodup)
    (accepted : IsPermutation order params.length) (count : args.length = params.length)
    (id : ParamId) :
    (env.bind (membersAt params order) (membersAt args order)).lookup id =
      (env.bind params args).lookup id := by
  have below := accepted.2.2
  have pairs : ((params.map (·.id)).zip args).length = params.length := by simp [count]
  have keys : ((params.map (·.id)).zip args).map Prod.fst = params.map (·.id) :=
    List.map_fst_zip (by simp [count])
  have perm : (((membersAt params order).map (·.id)).zip (membersAt args order)).reverse.Perm
      ((params.map (·.id)).zip args).reverse := by
    rw [map_membersAt, membersAt_zip (by simpa using below) (by simpa [count] using below)]
    have moved := IsPermutation.membersAt_perm (pairs.symm ▸ accepted)
    exact (List.reverse_perm _).trans (moved.trans (List.reverse_perm _).symm)
  have apart : (((params.map (·.id)).zip args).reverse.map Prod.fst).Nodup := by
    rw [List.map_reverse, keys, List.nodup_reverse]
    exact distinct
  rw [bind, bind, List.lookup_append, List.lookup_append, lookup_perm perm.symm apart]

/-- Bound arguments are there already if they were. -/
theorem Env.known_bind {params : List Param} {args : List Value} {n : Nat}
    (known : ∀ v ∈ args, v.Known n) : (Env.bind [] params args).Known n := by
  intro x hx
  rw [bind, List.append_nil] at hx
  exact known x.2 (List.of_mem_zip (List.mem_reverse.mp hx)).2

/-! ## Arguments -/

/-- **Arguments that move along with their parameters**: what the reordered function takes at
position `i` stands at position `order[i]` for the function. -/
def Moved {α : Type} (order : List Nat) (args original : List α) : Prop :=
  original.length = args.length ∧ ∀ i k : Nat, order[i]? = some k → original[k]? = args[i]?

section

variable {α : Type} {order : List Nat} {args original : List α}

/-- Moving back along an order is reordering. -/
theorem Moved.eq_membersAt (h : Moved order args original)
    (accepted : IsPermutation order args.length) : args = membersAt original order := by
  refine List.ext_getElem? fun i => ?_
  rw [getElem?_membersAt fun k hk => h.1.symm ▸ accepted.2.2 k hk]
  cases found : order[i]? with
  | some k => exact (h.2 i k found).symm
  | none =>
      rw [List.getElem?_eq_none_iff, accepted.1] at found
      rw [List.getElem?_eq_none found, Option.bind_none]

/-- **There is one way to move arguments back.** -/
theorem existsUnique_moved (accepted : IsPermutation order args.length) :
    ∃! original, Moved order args original := by
  have inverse := accepted.inverseOrder
  refine ⟨membersAt args (inverseOrder order), ⟨?_, fun i k found => ?_⟩, fun other moved => ?_⟩
  · rw [length_membersAt inverse.2.2, inverse.1]
  · obtain ⟨hi, rfl⟩ := List.getElem?_eq_some_iff.mp found
    have below : order[i] < order.length := accepted.1.symm ▸ accepted.2.2 _ (List.getElem_mem hi)
    rw [getElem?_membersAt inverse.2.2, getElem?_inverseOrder below, Option.bind_some,
      accepted.2.1.idxOf_getElem]
  · calc
      other = membersAt other (membersAt order (inverseOrder order)) := by
        rw [accepted.membersAt_inverseOrder, ← moved.1, membersAt_range]
      _ = membersAt (membersAt other order) (inverseOrder order) :=
        (membersAt_membersAt (fun k hk => moved.1.symm ▸ accepted.2.2 k hk) _).symm
      _ = membersAt args (inverseOrder order) := by rw [← moved.eq_membersAt accepted]

end

/-! ## Calls -/

namespace Lambda

variable {f : Lambda} {order : List Nat}

/-- **A reordered function does what the function does** on arguments that are reordered, too. -/
theorem call_membersAt (distinct : (f.params.map (·.id)).Nodup)
    (accepted : IsPermutation order f.arity) {args : List Value} (count : args.length = f.arity)
    {m n : Nat} (left : ∀ v ∈ args, v.Known m) (right : ∀ v ∈ args, v.Known n) (depth : Nat) :
    Agree (Pairing.known m n) Value.Alike (f.call depth args)
      (Lambda.call depth ⟨membersAt f.params order, f.body⟩ (membersAt args order)) := by
  have below := accepted.2.2
  have plain : f.params.length = args.length := count.symm
  have reordered : (membersAt f.params order).length = (membersAt args order).length := by
    rw [length_membersAt below, length_membersAt (count.symm ▸ below)]
  have moved : (membersAt args order).Perm args :=
    IsPermutation.membersAt_perm (count.symm ▸ accepted)
  cases depth with
  | zero => exact Agree.throw _
  | succ depth =>
      simp only [call, apply, if_pos plain, if_pos reordered]
      refine Expr.eval_agree_of_freeParams (fun p _ => ?_) ?_ ?_ depth
      · exact (Env.lookup_bind_membersAt [] distinct accepted count p.id).symm
      · exact Env.known_bind left
      · exact Env.known_bind fun v hv => right v (moved.mem_iff.mp hv)

/-- **Reordered functions take reordered arguments.**  Each order of the positions is accepted.  The
reordered function ends as the function does on the arguments that are moved back, to whatever depth
calls may nest: both with results that a bisimulation relates, which are equal if they have no
closures, or both with the same failure.  Given more or fewer arguments, both report the same. -/
theorem call_permute (distinct : (f.params.map (·.id)).Nodup)
    (positions : order.Perm (List.range f.arity)) :
    ∃ g, f.permute order = .ok g ∧
      (∃ R, Value.Bisimulation R ∧ (∀ w a b, R w a b → a.ClosureFree → a = b) ∧
        ∀ args : List Value, args.length = f.arity →
          (∃! original, Moved order args original) ∧
          ∀ (original : List Value) (depth m n : Nat), Moved order args original →
            (∀ v ∈ args, v.Known m ∧ v.Known n) →
            Agree (Pairing.known m n) R (f.call depth original) (g.call depth args)) ∧
      ∀ (args : List Value) (depth : Nat), args.length ≠ f.arity →
        f.call (depth + 1) args = .fault (.arity f.arity args.length) ∧
          g.call (depth + 1) args = .fault (.arity f.arity args.length) := by
  have accepted := isPermutation_iff_perm.mpr positions
  refine ⟨_, permute_of_isPermutation accepted, ⟨Value.Alike, Value.Alike.bisimulation, ?_, ?_⟩, ?_⟩
  · exact fun _ _ _ => Value.Alike.bisimulation.eq_of_closureFree
  · intro args count
    have accepted' : IsPermutation order args.length := count.symm ▸ accepted
    refine ⟨existsUnique_moved accepted', fun original depth m n moved known => ?_⟩
    obtain rfl := moved.eq_membersAt accepted'
    have same : (membersAt original order).Perm original :=
      IsPermutation.membersAt_perm (moved.1.symm ▸ accepted')
    have known := fun v hv => known v (same.mem_iff.mpr hv)
    exact call_membersAt distinct accepted (moved.1.trans count) (fun v hv => (known v hv).1)
      (fun v hv => (known v hv).2) depth
  · intro args depth other
    have arity : (membersAt f.params order).length = f.arity := by
      rw [length_membersAt accepted.2.2, accepted.1]
    constructor
    · exact if_neg fun same => other same.symm
    · rw [← arity]
      exact if_neg fun same => other (same.symm.trans arity)

/-- The function `triple` with its last parameter first, on numbers and with an argument missing. -/
theorem call_permute_triple :
    (triple.params.map (·.id)).Nodup ∧ [2, 0, 1].Perm (List.range triple.arity) ∧
    ∃ g, triple.permute [2, 0, 1] = .ok g ∧
      Moved [2, 0, 1] [.int 30, .int 10, .int 20] [Value.int 10, .int 20, .int 30] ∧
      (∃ R, Value.Bisimulation R ∧ Agree (Pairing.known 0 0) R
        (triple.call 1 [.int 10, .int 20, .int 30]) (g.call 1 [.int 30, .int 10, .int 20])) ∧
      triple.call 1 [.int 10, .int 20, .int 30] 0 = .ok (.tuple [.int 10, .int 20, .int 30], 0) ∧
      g.call 1 [.int 30] = .fault (.arity 3 1) := by
  have distinct : (triple.params.map (·.id)).Nodup := by decide
  have positions : [2, 0, 1].Perm (List.range triple.arity) := by decide
  obtain ⟨g, permuted, ⟨R, bisimulation, -, agree⟩, missing⟩ := call_permute distinct positions
  have moved : Moved [2, 0, 1] [.int 30, .int 10, .int 20] [Value.int 10, .int 20, .int 30] := by
    refine ⟨rfl, fun i k found => ?_⟩
    match i with
    | 0 | 1 | 2 =>
        cases found
        rfl
    | _ + 3 => cases found
  have known : ∀ v ∈ [Value.int 30, .int 10, .int 20], v.Known 0 ∧ v.Known 0 := by
    simp [Value.Known, Value.closureIds]
  exact ⟨distinct, positions, g, permuted, moved,
    ⟨R, bisimulation, (agree _ rfl).2 _ 1 0 0 moved known⟩, rfl,
    (missing [.int 30] 0 (by decide)).2⟩

end Lambda

end RowQuery
