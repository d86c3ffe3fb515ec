import RowQuery.Proofs.Query.SettledOutcomes

/-!
# Functions called on one row after the other

The operations on rows call a function on each row in turn.  The numbers of the closures that the
calls make run through, and the first call that halts is the failure of the operation.

* `EvalM.Runs`, `EvalM.Halts` — evaluations on a list, each with a value, and the first that halts.
* `RowM.mapM_ofEval_eq_ok_iff`, `RowM.mapM_ofEval_eq_error_iff` — they are what such a computation
  does.
* `Rows.keyed_eq`, `Rows.filter_eq` — the keys of rows, and the verdicts on them, are a projection.
-/

namespace RowQuery

/-! ## Evaluations on a list -/

namespace EvalM

variable {α β : Type} {c : α → EvalM β} {xs : List α} {ys : List β} {n m : Nat}

/-- **Evaluations on a list, one after the other**, each with a value.  The next closure has number
`n` before the first of them, and number `m` after the last. -/
inductive Runs (c : α → EvalM β) : List α → Nat → List β → Nat → Prop
  | nil {n : Nat} : Runs c [] n [] n
  | cons {x : α} {xs : List α} {y : β} {ys : List β} {n k m : Nat} (first : c x n = .ok (y, k))
      (rest : Runs c xs k ys m) : Runs c (x :: xs) n (y :: ys) m

/-- **The first evaluation on a list that halts**, after values of all that come before it. -/
inductive Halts (c : α → EvalM β) : List α → Nat → Halt → Prop
  | first {x : α} {xs : List α} {n : Nat} {h : Halt} (halts : c x n = .error h) :
      Halts c (x :: xs) n h
  | later {x : α} {xs : List α} {y : β} {n k : Nat} {h : Halt} (value : c x n = .ok (y, k))
      (rest : Halts c xs k h) : Halts c (x :: xs) n h

end EvalM

namespace RowM

variable {α β : Type} {c : α → EvalM β} {xs : List α} {ys : List β} {n m : Nat}

theorem ofEval_eq_ok_iff {c : EvalM β} {b : β} : ofEval c n = .ok (b, m) ↔ c n = .ok (b, m) := by
  unfold ofEval
  cases c n with
  | ok x =>
      obtain ⟨_, _⟩ := x
      simp
  | error h => cases h <;> simp

/-- **A list is computed** by evaluations one after the other. -/
theorem mapM_ofEval_eq_ok_iff :
    (xs.mapM fun x => ofEval (c x)) n = .ok (ys, m) ↔ EvalM.Runs c xs n ys m := by
  constructor
  · intro run
    induction xs generalizing n ys with
    | nil =>
        cases run
        exact .nil
    | cons x xs ih =>
        rw [List.mapM_cons] at run
        obtain ⟨y, k, first, run⟩ := bind_eq_ok_iff.mp run
        obtain ⟨ys, l, rest, run⟩ := bind_eq_ok_iff.mp run
        cases run
        exact .cons (ofEval_eq_ok_iff.mp first) (ih rest)
  · intro runs
    induction runs with
    | nil => rfl
    | cons first _ ih =>
        rw [List.mapM_cons]
        exact bind_eq_ok_iff.mpr ⟨_, _, ofEval_eq_ok_iff.mpr first, bind_eq_ok_iff.mpr
          ⟨_, _, ih, rfl⟩⟩

/-- **A list is not computed** if an evaluation halts, and the first one is the failure. -/
theorem mapM_ofEval_eq_error_iff {e : QueryError} :
    (xs.mapM fun x => ofEval (c x)) n = .error e ↔ ∃ h, EvalM.Halts c xs n h ∧ e = .ofHalt h := by
  constructor
  · intro fails
    induction xs generalizing n with
    | nil => cases fails
    | cons x xs ih =>
        rw [List.mapM_cons, bind_eq_error_iff] at fails
        rcases fails with first | ⟨y, k, value, fails⟩
        · obtain ⟨h, halts, rfl⟩ := ofEval_eq_error_iff.mp first
          exact ⟨h, .first halts, rfl⟩
        · rcases bind_eq_error_iff.mp fails with rest | ⟨_, _, _, ⟨⟩⟩
          obtain ⟨h, halts, rfl⟩ := ih rest
          exact ⟨h, .later (ofEval_eq_ok_iff.mp value) halts, rfl⟩
  · rintro ⟨h, halts, rfl⟩
    induction halts with
    | first halts =>
        rw [List.mapM_cons, bind_eq_error_iff]
        exact .inl (ofEval_eq_error_iff.mpr ⟨_, halts, rfl⟩)
    | later value _ ih =>
        rw [List.mapM_cons, bind_eq_error_iff]
        exact .inr ⟨_, _, ofEval_eq_ok_iff.mpr value, bind_eq_error_iff.mpr (.inl ih)⟩

/-- What is made of a result does not matter to a failure. -/
theorem map_eq_error_iff {c : RowM α} {f : α → β} {e : QueryError} :
    (do return f (← c) : RowM β) n = .error e ↔ c n = .error e := by
  refine bind_eq_error_iff.trans (or_iff_left ?_)
  rintro ⟨_, _, _, ⟨⟩⟩

theorem map_eq_ok_iff {c : RowM α} {f : α → β} {b : β} :
    (do return f (← c) : RowM β) n = .ok (b, m) ↔ ∃ a, c n = .ok (a, m) ∧ b = f a := by
  refine bind_eq_ok_iff.trans ⟨?_, ?_⟩
  · rintro ⟨a, k, run, ⟨⟩⟩
    exact ⟨a, run, rfl⟩
  · rintro ⟨a, run, rfl⟩
    exact ⟨a, m, run, rfl⟩

end RowM

/-! ## Operations on rows -/

namespace Rows

variable {depth n m : Nat} {f : Lambda} {rows : List Value}

/-- **Projection** calls the function on one row after the other. -/
theorem project_eq_ok_iff {vs : List Value} : project depth f rows n = .ok (vs, m) ↔
    EvalM.Runs (fun row => f.call depth [row]) rows n vs m :=
  RowM.mapM_ofEval_eq_ok_iff

theorem project_eq_error_iff {e : QueryError} : project depth f rows n = .error e ↔
    ∃ h, EvalM.Halts (fun row => f.call depth [row]) rows n h ∧ e = .ofHalt h :=
  RowM.mapM_ofEval_eq_error_iff

theorem project_cons (depth : Nat) (f : Lambda) (row : Value) (rows : List Value) :
    project depth f (row :: rows) = do
      let v ← f.onRow depth row
      return v :: (← project depth f rows) :=
  List.mapM_cons

theorem keyed_cons (depth : Nat) (key : Lambda) (row : Value) (rows : List Value) :
    keyed depth key (row :: rows) = do
      let k ← key.onRow depth row
      return (k, row) :: (← keyed depth key rows) := by
  rw [keyed, List.mapM_cons, bind_assoc]
  rfl

/-- **Keys are a projection**, and each stands beside its row. -/
theorem keyed_eq (depth : Nat) (key : Lambda) (rows : List Value) :
    keyed depth key rows = do return (← project depth key rows).zip rows := by
  induction rows with
  | nil => rfl
  | cons row rows ih =>
      rw [keyed_cons, ih, project_cons]
      simp only [bind_assoc, pure_bind, List.zip_cons_cons]

theorem keyed_eq_ok_iff {xs : List (Value × Value)} : keyed depth f rows n = .ok (xs, m) ↔
    ∃ ks, EvalM.Runs (fun row => f.call depth [row]) rows n ks m ∧ xs = ks.zip rows := by
  simp only [keyed_eq, RowM.map_eq_ok_iff, project_eq_ok_iff]

/-- The rows that stand beside the value true. -/
def accepted (rows verdicts : List Value) : List Value :=
  ((rows.zip verdicts).filter fun x => x.2 == .bool true).map (·.1)

/-- Only the value true is true. -/
theorem isTrue_eq (v : Value) : isTrue v = (v == .bool true) := by
  cases v with
  | bool b => cases b <;> rfl
  | _ => rfl

/-- **Verdicts are a projection**, and the rows that stand beside the value true are kept. -/
theorem filter_eq (depth : Nat) (predicate : Lambda) (rows : List Value) :
    filter depth predicate rows = do return accepted rows (← project depth predicate rows) := by
  induction rows with
  | nil => rfl
  | cons row rows ih =>
      rw [filter, ih, project_cons]
      simp only [bind_assoc, pure_bind]
      refine congrArg _ (funext fun verdict => ?_)
      have step : ∀ vs, (if isTrue verdict then row :: accepted rows vs else accepted rows vs) =
          accepted (row :: rows) (verdict :: vs) := by
        intro vs
        rw [accepted, accepted, List.zip_cons_cons, List.filter_cons, isTrue_eq]
        split <;> rfl
      simp only [step]

end Rows

end RowQuery
