import RowQuery.Query.Context

/-!
# Outcomes of composed computations

A composed computation ends well if each of its parts did, and fails where the first of them did.

* `bind_eq_ok_iff`, `bind_eq_error_iff` — outcomes composed one after the other.
* `QueryM.exec` — a query in a context and a session: its outcome, and the session it leaves behind.
* `QueryM.exec_bind_eq_ok_iff`, `QueryM.exec_ofRows_eq_ok_iff` — queries composed one after the
  other, and evaluation on rows within a query.
* `RowM.bind_eq_ok_iff`, `RowM.bind_eq_error_iff` — computations on rows composed one after the
  other.
* `RowM.Lands` — computations on rows that end in an expected way.
-/

namespace RowQuery

/-- A composition ends well exactly if both parts do. -/
theorem bind_eq_ok_iff {ε α β : Type} {r : Except ε α} {f : α → Except ε β} {b : β} :
    r >>= f = .ok b ↔ ∃ a, r = .ok a ∧ f a = .ok b := by
  cases r with
  | ok a =>
      constructor
      · exact fun h => ⟨a, rfl, h⟩
      · rintro ⟨_, ⟨⟩, h⟩
        exact h
  | error e =>
      constructor
      · rintro ⟨⟩
      · rintro ⟨_, ⟨⟩, _⟩

/-- A composition fails if its first part does, or the second one after the first. -/
theorem bind_eq_error_iff {ε α β : Type} {r : Except ε α} {f : α → Except ε β} {e : ε} :
    r >>= f = .error e ↔ r = .error e ∨ ∃ a, r = .ok a ∧ f a = .error e := by
  cases r with
  | ok a =>
      constructor
      · exact fun h => .inr ⟨a, rfl, h⟩
      · rintro (⟨⟨⟩⟩ | ⟨_, ⟨⟩, h⟩)
        exact h
  | error e' =>
      constructor
      · rintro ⟨⟩
        exact .inl rfl
      · rintro (⟨⟨⟩⟩ | ⟨_, ⟨⟩, _⟩)
        rfl

/-- Another result makes no success of a failure, and no failure of a success. -/
theorem map_eq_ok_iff {ε α β : Type} {r : Except ε α} {f : α → β} {b : β} :
    r.map f = .ok b ↔ ∃ a, r = .ok a ∧ f a = b := by
  cases r with
  | ok a =>
      constructor
      · rintro ⟨⟩
        exact ⟨a, rfl, rfl⟩
      · rintro ⟨_, ⟨⟩, rfl⟩
        rfl
  | error _ =>
      constructor
      · rintro ⟨⟩
      · rintro ⟨_, ⟨⟩, _⟩

theorem map_eq_error_iff {ε α β : Type} {r : Except ε α} {f : α → β} {e : ε} :
    r.map f = .error e ↔ r = .error e := by
  cases r with
  | ok a =>
      constructor
      · rintro ⟨⟩
      · rintro ⟨⟩
  | error _ =>
      constructor
      · rintro ⟨⟩
        rfl
      · rintro ⟨⟩
        rfl

/-- Another wording of a failure makes no success. -/
@[simp]
theorem mapError_eq_ok_iff {ε ε' α : Type} {r : Except ε α} {f : ε → ε'} {a : α} :
    r.mapError f = .ok a ↔ r = .ok a := by
  cases r with
  | ok _ =>
      constructor
      · rintro ⟨⟩
        rfl
      · rintro ⟨⟩
        rfl
  | error _ =>
      constructor
      · rintro ⟨⟩
      · rintro ⟨⟩

/-- The failure is the old one in the other wording. -/
@[simp]
theorem mapError_eq_error_iff {ε ε' α : Type} {r : Except ε α} {f : ε → ε'} {e : ε'} :
    r.mapError f = .error e ↔ ∃ cause, r = .error cause ∧ f cause = e := by
  cases r with
  | ok _ =>
      constructor
      · rintro ⟨⟩
      · rintro ⟨_, ⟨⟩, _⟩
  | error cause =>
      constructor
      · rintro ⟨⟩
        exact ⟨cause, rfl, rfl⟩
      · rintro ⟨_, ⟨⟩, rfl⟩
        rfl

namespace RowM

/-- Computations on rows end well together exactly if both do. -/
theorem bind_eq_ok_iff {α β : Type} {m : RowM α} {f : α → RowM β} {n : Nat} {x : β × Nat} :
    (m >>= f) n = .ok x ↔ ∃ a k, m n = .ok (a, k) ∧ f a k = .ok x := by
  refine RowQuery.bind_eq_ok_iff.trans ⟨?_, ?_⟩
  · rintro ⟨⟨a, k⟩, hm, hf⟩
    exact ⟨a, k, hm, hf⟩
  · rintro ⟨a, k, hm, hf⟩
    exact ⟨(a, k), hm, hf⟩

/-- They fail together if the first one fails, or the second one after the first. -/
theorem bind_eq_error_iff {α β : Type} {m : RowM α} {f : α → RowM β} {n : Nat} {e : QueryError} :
    (m >>= f) n = .error e ↔ m n = .error e ∨ ∃ a k, m n = .ok (a, k) ∧ f a k = .error e := by
  refine RowQuery.bind_eq_error_iff.trans (or_congr_right ⟨?_, ?_⟩)
  · rintro ⟨⟨a, k⟩, hm, hf⟩
    exact ⟨a, k, hm, hf⟩
  · rintro ⟨a, k, hm, hf⟩
    exact ⟨(a, k), hm, hf⟩

@[simp]
theorem ofExcept_eq_ok_iff {α : Type} {r : Except QueryError α} {n k : Nat} {a : α} :
    ofExcept r n = .ok (a, k) ↔ r = .ok a ∧ k = n := by
  cases r with
  | ok b =>
      constructor
      · rintro ⟨⟩
        exact ⟨rfl, rfl⟩
      · rintro ⟨⟨⟩, rfl⟩
        rfl
  | error e =>
      constructor
      · rintro ⟨⟩
      · rintro ⟨⟨⟩, _⟩

/-- **Computations that end in an expected way**: with a result that has a property, or with a
failure that has another one. -/
def Lands {α : Type} (P : α → Prop) (Q : QueryError → Prop) (c : RowM α) : Prop :=
  ∀ n, match c n with
    | .ok (a, _) => P a
    | .error e => Q e

namespace Lands

variable {α β : Type} {P : α → Prop} {P' : β → Prop} {Q : QueryError → Prop}

theorem pure {a : α} (h : P a) : Lands P Q (Pure.pure a : RowM α) := fun _ => h

/-- A failure of the composition is a failure of one of the two parts. -/
theorem bind {c : RowM α} {d : α → RowM β} (hc : Lands P Q c) (hd : ∀ a, P a → Lands P' Q (d a)) :
    Lands P' Q (c >>= d) := by
  intro n
  have first := hc n
  have run : (c >>= d) n = c n >>= fun x => d x.1 x.2 := rfl
  rw [run]
  generalize c n = r at first ⊢
  match r with
  | .ok (a, k) => exact hd a first k
  | .error e => exact first

/-- More failures may be expected. -/
theorem mono {c : RowM α} {Q' : QueryError → Prop} (h : Lands P Q c) (hQ : ∀ e, Q e → Q' e) :
    Lands P Q' c := by
  intro n
  have lands := h n
  generalize c n = r at lands ⊢
  match r with
  | .ok (a, k) => exact lands
  | .error e => exact hQ e lands

/-- What follows a check that succeeds. -/
theorem ofExcept_bind {r : Except QueryError α} {a : α} {d : α → RowM β} (h : r = .ok a)
    (hd : Lands P' Q (d a)) : Lands P' Q (ofExcept r >>= d) := by
  rw [h]
  exact hd

end Lands

end RowM

namespace QueryM

variable {α β : Type} {ctx : QueryContext} {s s' : Session}

/-- **A query in a context and a session**: its outcome, and the session it leaves behind. -/
def exec (m : QueryM α) (ctx : QueryContext) (session : Session) :
    Except QueryError α × Session :=
  (m.run ctx).run.run session

@[simp]
theorem exec_ofExcept (r : Except QueryError α) : (ofExcept r).exec ctx s = (r, s) := rfl

/-- Splitting within a query. -/
theorem exec_ofSplit (m : SplitM α) : (ofSplit m).exec ctx s =
    ((m.run.run s.split).1.mapError .split, { s with split := (m.run.run s.split).2 }) := rfl

/-- Evaluation on rows within a query. -/
theorem exec_ofRows (ctx : QueryContext) (m : RowM α) : (ofRows m).exec ctx s =
    match m s.closures with
    | .ok (a, closures) => (.ok a, { s with closures })
    | .error e => (.error e, s) := rfl

/-- Evaluation on rows within a query ends well exactly if the evaluation does. -/
theorem exec_ofRows_eq_ok_iff (ctx : QueryContext) {m : RowM α} {a : α} :
    (ofRows m).exec ctx s = (.ok a, s') ↔
      ∃ closures, m s.closures = .ok (a, closures) ∧ s' = { s with closures } := by
  rw [exec_ofRows]
  cases m s.closures with
  | ok x =>
      constructor
      · rintro ⟨⟩
        exact ⟨_, rfl, rfl⟩
      · rintro ⟨_, ⟨⟩, rfl⟩
        rfl
  | error e =>
      constructor
      · rintro ⟨⟩
      · rintro ⟨_, ⟨⟩, _⟩

/-- A query may read its context. -/
@[simp]
theorem exec_read_bind (f : QueryContext → QueryM β) :
    (read >>= f : QueryM β).exec ctx s = (f ctx).exec ctx s := rfl

/-- Evaluation on rows may read the context, too. -/
theorem exec_read_ofRows_eq_ok_iff {f : QueryContext → RowM α} {a : α} :
    (read >>= fun ctx => ofRows (f ctx) : QueryM α).exec ctx s = (.ok a, s') ↔
      ∃ closures, f ctx s.closures = .ok (a, closures) ∧ s' = { s with closures } := by
  rw [exec_read_bind]
  exact exec_ofRows_eq_ok_iff ctx

/-- The second part runs in the session that the first one leaves behind. -/
theorem exec_bind (m : QueryM α) (f : α → QueryM β) : (m >>= f).exec ctx s =
    match m.exec ctx s with
    | (.ok a, s') => (f a).exec ctx s'
    | (.error e, s') => (.error e, s') := by
  simp only [exec, ReaderT.run_bind, ExceptT.run_bind, StateT.run_bind]
  rcases (m.run ctx).run.run s with ⟨_ | _, _⟩ <;> rfl

/-- **Queries end well together exactly if both do.** -/
theorem exec_bind_eq_ok_iff {m : QueryM α} {f : α → QueryM β} {b : β} :
    (m >>= f).exec ctx s = (.ok b, s') ↔
      ∃ a t, m.exec ctx s = (.ok a, t) ∧ (f a).exec ctx t = (.ok b, s') := by
  rw [exec_bind]
  constructor
  · intro h
    split at h
    case h_1 a t heq => exact ⟨a, t, heq, h⟩
    case h_2 e t heq => cases h
  · rintro ⟨a, t, hm, hf⟩
    rw [hm]
    exact hf

end QueryM

end RowQuery
