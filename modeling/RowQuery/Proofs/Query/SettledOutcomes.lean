import RowQuery.Proofs.Alike.Reordering
import RowQuery.Proofs.ParamOrder.Calls
import RowQuery.Proofs.Query.AlikeRows
import RowQuery.Proofs.Query.FullJoinRun

/-!
# Outcomes that do not depend on the time

Joins evaluate the same functions on the same rows again, at later times and in other forms.  A
result without closures is found again, and so is a failure.

* `Settles` — computations whose result stays the same from some time on.
* `EndsAlike` — computations that end alike at any time: both with a result, or with one failure.
* `EndsAlike.mapM_fails`, `EndsAlike.exists_of_mapM_fails` — on a list, some computation fails
  exactly if one of the members does.
* `Lambda.call_switch` — exchanging the parameters of a selector, and its arguments.
* `halfSelector_agree`, **`halfSelector_settles`** — the selector of one half has the values of the
  selector.
-/

namespace RowQuery

/-! ## Results -/

/-- **Computations whose result stays the same** once the next closure has number `n`. -/
def Settles {α : Type} (n : Nat) (c : RowM α) (a : α) : Prop :=
  ∀ m, n ≤ m → ∃ k, c m = .ok (a, m + k)

namespace Settles

variable {α β : Type} {n : Nat}

theorem pure (a : α) : Settles n (Pure.pure a : RowM α) a := fun _ _ => ⟨0, rfl⟩

theorem ofExcept {r : Except QueryError α} {a : α} (h : r = .ok a) :
    Settles n (RowM.ofExcept r) a := by
  intro m _
  rw [h]
  exact ⟨0, rfl⟩

theorem bind {c : RowM α} {d : α → RowM β} {a : α} {b : β} (hc : Settles n c a)
    (hd : Settles n (d a) b) : Settles n (c >>= d) b := by
  intro m hm
  obtain ⟨k, first⟩ := hc m hm
  obtain ⟨l, second⟩ := hd (m + k) (Nat.le_add_right_of_le hm)
  refine ⟨k + l, ?_⟩
  rw [RowM.bind_eq_ok_iff, ← Nat.add_assoc]
  exact ⟨_, _, first, second⟩

/-- What stays the same from some time on does so from every later time on. -/
theorem mono {c : RowM α} {a : α} {m : Nat} (h : Settles n c a) (hnm : n ≤ m) : Settles m c a :=
  fun l hl => h l (hnm.trans hl)

/-- Settled computations one after the other. -/
theorem mapM {f : α → RowM β} {xs : List α} {ys : List β}
    (h : List.Forall₂ (fun x y => Settles n (f x) y) xs ys) : Settles n (xs.mapM f) ys := by
  induction h with
  | nil => exact Settles.pure []
  | cons hx _ ih =>
      rw [List.mapM_cons]
      exact hx.bind (ih.bind (Settles.pure _))

end Settles

theorem Value.Known.mono {v : Value} {m n : Nat} (h : v.Known m) (hmn : m ≤ n) : v.Known n :=
  fun i hi => Nat.lt_of_lt_of_le (h i hi) hmn

/-! ## Failures -/

/-- The failure of a query in which an evaluation halts. -/
def QueryError.ofHalt : Halt → QueryError
  | .fault e => .eval e
  | .depth => .callDepth

theorem RowM.ofEval_eq_error_iff {α : Type} {m : EvalM α} {n : Nat} {e : QueryError} :
    ofEval m n = .error e ↔ ∃ h, m n = .error h ∧ e = .ofHalt h := by
  unfold ofEval
  cases m n with
  | ok x => simp
  | error h => cases h <;> simp [QueryError.ofHalt, eq_comm]

/-- **Computations that end alike**, the second one at any time from `n` on. -/
def EndsAlike {α β : Type} (n : Nat) (c : RowM α) (d : RowM β) : Prop :=
  ∀ m, n ≤ m → Agree (Pairing.known n m) (fun _ _ _ => True) c d

namespace EndsAlike

variable {α β γ : Type} {n m : Nat} {c : RowM α} {d : RowM β}

theorem fails_iff (h : EndsAlike n c d) (hm : n ≤ m) {e : QueryError} :
    c n = .error e ↔ d m = .error e :=
  (h m hm).eq_error_iff

theorem le_of_eq_ok (h : EndsAlike n c d) (hm : n ≤ m) {b : β} {k : Nat} (run : d m = .ok (b, k)) :
    m ≤ k := by
  have agree := h m hm
  unfold Agree Outcomes at agree
  rw [Pairing.known_left, Pairing.known_right, run] at agree
  cases hc : c n with
  | error e => simp [hc] at agree
  | ok x =>
      rw [hc] at agree
      obtain ⟨l, -, rfl, -⟩ := agree
      exact Nat.le_add_right m l

/-- What is made of the result does not matter. -/
theorem mapRight (h : EndsAlike n c d) (f : β → γ) :
    EndsAlike n c (do return f (← d)) := by
  intro m hm
  have composed : Agree (Pairing.known n m) (fun _ _ _ => True) (c >>= Pure.pure)
      (do return f (← d)) :=
    (h m hm).bind fun _ _ _ _ => Agree.pure trivial
  rwa [bind_pure] at composed

variable {f : γ → RowM α} {g : γ → RowM β} {xs : List γ}

/-- **A list fails if one of its members does**, whatever the others do. -/
theorem mapM_fails (h : ∀ x ∈ xs, EndsAlike n (f x) (g x)) (hm : n ≤ m) {x : γ} (hx : x ∈ xs)
    {e : QueryError} (fails : f x n = .error e) : ∃ e', xs.mapM g m = .error e' := by
  induction xs generalizing m with
  | nil => cases hx
  | cons y ys ih =>
      have first := h y List.mem_cons_self
      simp only [List.mapM_cons, RowM.bind_eq_error_iff]
      cases hy : g y m with
      | error e' => exact ⟨e', .inl rfl⟩
      | ok r =>
          obtain ⟨b, k⟩ := r
          rcases List.mem_cons.mp hx with rfl | hx
          · rw [(first.fails_iff hm).mp fails] at hy
            cases hy
          · have later := hm.trans (first.le_of_eq_ok hm hy)
            obtain ⟨e', rest⟩ := ih (fun z hz => h z (List.mem_cons_of_mem y hz)) later hx
            exact ⟨e', .inr ⟨b, k, rfl, .inl rest⟩⟩

/-- **A list fails only as one of its members does.** -/
theorem exists_of_mapM_fails (h : ∀ x ∈ xs, EndsAlike n (f x) (g x)) (hm : n ≤ m) {e : QueryError}
    (fails : xs.mapM g m = .error e) : ∃ x ∈ xs, f x n = .error e := by
  induction xs generalizing m with
  | nil => cases fails
  | cons y ys ih =>
      have first := h y List.mem_cons_self
      simp only [List.mapM_cons, RowM.bind_eq_error_iff] at fails
      rcases fails with fails | ⟨b, k, hy, rest⟩
      · exact ⟨y, List.mem_cons_self, (first.fails_iff hm).mpr fails⟩
      · rcases rest with rest | ⟨_, _, _, ⟨⟩⟩
        have later := hm.trans (first.le_of_eq_ok hm hy)
        obtain ⟨x, hx, fails⟩ := ih (fun z hz => h z (List.mem_cons_of_mem y hz)) later rest
        exact ⟨x, List.mem_cons_of_mem y hx, fails⟩

end EndsAlike

/-- A function ends alike on a row whenever it is called. -/
theorem Lambda.onRow_endsAlike (f : Lambda) (depth : Nat) {row : Value} {n : Nat}
    (known : row.Known n) : EndsAlike n (f.onRow depth row) (f.onRow depth row) := by
  intro m hm
  have agree := f.call_agree depth (.cons (Value.Alike.known known (known.mono hm)) .nil)
  exact (Agree.ofEval agree).imp fun _ _ _ _ => trivial

/-! ## Selectors -/

section

variable {f : Lambda} {mode : MatchMode} {p q : Param} {O I S T : Ty} {a b v : Value}
  {n k depth : Nat}

/-- **Exchanging parameters and arguments** changes no result without closures. -/
theorem Lambda.call_switch (params : f.params = [p, q]) (distinct : p.id ≠ q.id)
    (ha : a.Known n) (hb : b.Known n) (call : f.call depth [a, b] n = .ok (v, k))
    (free : v.ClosureFree) :
    ∃ l, (Lambda.call depth ⟨[q, p], f.body⟩ [b, a]) n = .ok (v, l) := by
  have arity : f.arity = 2 := by rw [Lambda.arity, params]; rfl
  have apart : (f.params.map (·.id)).Nodup := by simpa [params] using distinct
  have known : ∀ v ∈ [a, b], v.Known n :=
    List.forall_mem_cons.mpr ⟨ha, List.forall_mem_singleton.mpr hb⟩
  have count : [a, b].length = f.arity := arity.symm
  have agree := f.call_membersAt apart (isPermutation_switch arity) count known known depth
  rw [params] at agree
  obtain ⟨l, same⟩ := agree.eq_ok_of_closureFree call free
  exact ⟨_, same⟩

/-- **The selector of one half** does on a join row what the selector does on its members. -/
theorem halfSelector_agree (ctx : QueryContext) {id : UInt32} (sel : f.TakesPair mode p q S T)
    (fresh : ⟨id⟩ ∉ f.body.declared) {w : Pairing} (ha : a.Alike w a) (hb : b.Alike w b)
    (depth : Nat) : Agree w Value.Alike (f.call depth [a, b])
      ((halfSelector ctx id O I f).call depth [JoinRow.value a b]) := by
  have members : List.Forall₂
      (fun (slot : MemberSlot) u => (JoinRow.value a b).member slot.name = .ok u ∧ u.Alike w u)
      (Lambda.TakesBothOptional.plan O I).slots [a, b] :=
    .cons ⟨rfl, ha⟩ (.cons ⟨rfl, hb⟩ .nil)
  exact CarrierMap.splitLambda_agree_call sel.checkParams (by rw [sel.params_eq]; rfl) fresh
    members depth

/-- **The selector of one half** has the value of the selector on the members of the join row. -/
theorem halfSelector_settles (ctx : QueryContext) {id : UInt32} (sel : f.TakesPair mode p q S T)
    (fresh : ⟨id⟩ ∉ f.body.declared) (ha : a.Known n) (hb : b.Known n)
    (call : f.call depth [a, b] n = .ok (v, k)) (free : v.ClosureFree) :
    Settles n ((halfSelector ctx id O I f).onRow depth (JoinRow.value a b)) v := by
  intro m hm
  have agree : Agree (Pairing.known n m) Value.Alike (f.call depth [a, b])
      ((halfSelector ctx id O I f).call depth [JoinRow.value a b]) :=
    halfSelector_agree ctx sel fresh (.known ha (ha.mono hm)) (.known hb (hb.mono hm)) depth
  obtain ⟨l, run⟩ := agree.eq_ok_of_closureFree call free
  refine ⟨l, ?_⟩
  rw [Pairing.known_right] at run
  rw [Lambda.onRow, RowM.ofEval, run]

/-- It fails on the join row exactly as the selector does on the members. -/
theorem halfSelector_endsAlike (ctx : QueryContext) {id : UInt32} (sel : f.TakesPair mode p q S T)
    (fresh : ⟨id⟩ ∉ f.body.declared) (ha : a.Known n) (hb : b.Known n) (depth : Nat) :
    EndsAlike n (RowM.ofEval (f.call depth [a, b]))
      ((halfSelector ctx id O I f).onRow depth (JoinRow.value a b)) := by
  intro m hm
  have agree : Agree (Pairing.known n m) Value.Alike (f.call depth [a, b])
      ((halfSelector ctx id O I f).call depth [JoinRow.value a b]) :=
    halfSelector_agree ctx sel fresh (.known ha (ha.mono hm)) (.known hb (hb.mono hm)) depth
  exact (Agree.ofEval agree).imp fun _ _ _ _ => trivial

end

end RowQuery
