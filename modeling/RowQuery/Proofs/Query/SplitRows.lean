import RowQuery.Proofs.Query.FullJoinSides
import RowQuery.Proofs.Query.RowCalls

/-!
# The rows of a split projection and of a split filter

Projection and filtering take a function of several parameters and call the split one, of the row
alone.  Their results are those of the function on the members of each row, up to a bisimulation, and
its verdicts are the same.

* `EndsAs` — a query that ends as evaluations on a list do.
* `Lambda.ProjectsAs` — a function whose projection ends as they do.
* `Rows.projectsAs_call`, `Rows.projectsAs_of_agree` — the calls of the function itself, and those of
  one that behaves as it does.
* `CarrierMap.splitLambda_projectsAs` — split functions.
* `Source.selectSplit_endsAs`, `Source.whereSplit_endsAs` — what projection and filtering make of it.
* **`Source.split_rows`** — split projections and filters of sequences.
-/

namespace RowQuery

/-! ## Queries that end as evaluations do -/

/-- **A query that ends as evaluations on a list do.**  Where all of them have values, it has a
result, which is related to the values and to the number of the next closure; where one halts, the
first that does is the failure. -/
structure EndsAs {α : Type} (q : QueryM Sequence) (ctx : QueryContext) (s : Session)
    (split : SplitState) (c : α → EvalM Value) (xs : List α)
    (P : List Value → Nat → Sequence → Prop) : Prop where
  result : ∀ {vs : List Value} {m : Nat}, EvalM.Runs c xs s.closures vs m →
    ∃ seq, q.exec ctx s = (.ok seq, { s with split, closures := m }) ∧ P vs m seq
  failure : ∀ {e : QueryError}, (q.exec ctx s).1 = .error e ↔
    ∃ h, EvalM.Halts c xs s.closures h ∧ e = .ofHalt h

theorem EndsAs.imp {α : Type} {q : QueryM Sequence} {ctx : QueryContext} {s : Session}
    {split : SplitState} {c : α → EvalM Value} {xs : List α}
    {P Q : List Value → Nat → Sequence → Prop} (h : EndsAs q ctx s split c xs P)
    (hPQ : ∀ vs m result, P vs m result → Q vs m result) : EndsAs q ctx s split c xs Q where
  result runs := by
    obtain ⟨seq, run, hP⟩ := h.result runs
    exact ⟨seq, run, hPQ _ _ _ hP⟩
  failure := h.failure

/-- **A projection that ends as evaluations on a list do.**  Its values are related to theirs, in
dependence on the number of the next closure. -/
structure Lambda.ProjectsAs {α : Type} (f : Lambda) (depth : Nat) (rows : List Value) (n : Nat)
    (c : α → EvalM Value) (xs : List α) (R : Nat → Value → Value → Prop) : Prop where
  values : ∀ {vs : List Value} {m : Nat}, EvalM.Runs c xs n vs m →
    ∃ us, Rows.project depth f rows n = .ok (us, m) ∧ List.Forall₂ (R m) vs us
  failure : ∀ {e : QueryError}, Rows.project depth f rows n = .error e ↔
    ∃ h, EvalM.Halts c xs n h ∧ e = .ofHalt h

/-! ## Projections -/

namespace Rows

variable {depth n : Nat} {f g : Lambda} {rows : List Value}

/-- **A function projects as it is called** on the rows. -/
theorem projectsAs_call (f : Lambda) (depth : Nat) (rows : List Value) (n : Nat) :
    f.ProjectsAs depth rows n (fun row => f.call depth [row]) rows (fun _ v u => v = u) where
  values runs := ⟨_, project_eq_ok_iff.mpr runs, List.forall₂_same.mpr fun _ _ => rfl⟩
  failure := project_eq_error_iff

/-- **A function projects as another one is called** on lists of arguments, if it behaves on each row
as the other one does on the arguments. -/
theorem projectsAs_of_agree {argss : List (List Value)}
    (agree : List.Forall₂ (fun args row => ∀ v, Pairing.known n n ≤ v →
      Agree v Value.Alike (f.call depth args) (g.call depth [row])) argss rows) :
    g.ProjectsAs depth rows n (f.call depth) argss
      (fun m => Value.Alike ((Pairing.known n n).grow (m - n))) := by
  have all : Agree (Pairing.known n n) (fun v => List.Forall₂ (Value.Alike v))
      (argss.mapM fun args => RowM.ofEval (f.call depth args)) (project depth g rows) :=
    Agree.mapM Value.Alike.persistent
      (agree.imp fun _ _ h v hv => Agree.ofEval (h v hv)) _ le_rfl
  constructor
  case values =>
    intro vs m runs
    obtain ⟨k, us, rfl, run, alike⟩ := all.eq_ok (RowM.mapM_ofEval_eq_ok_iff.mpr runs)
    exact ⟨us, run, by simpa using alike⟩
  case failure =>
    intro e
    rw [← RowM.mapM_ofEval_eq_error_iff]
    exact all.eq_error_iff.symm

/-- **Alike verdicts keep the same rows.** -/
theorem accepted_alike {w : Pairing} {vs us : List Value} (h : List.Forall₂ (Value.Alike w) vs us) :
    accepted rows vs = accepted rows us := by
  induction h generalizing rows with
  | nil => rfl
  | @cons v u vs us hvu _ ih =>
      cases rows with
      | nil => rfl
      | cons row rows =>
          have same : (v == .bool true) = (u == .bool true) := hvu.same_eq (.bool true)
          unfold accepted at ih ⊢
          rw [List.zip_cons_cons, List.zip_cons_cons, List.filter_cons, List.filter_cons, same]
          split
          · rw [List.map_cons, List.map_cons, ih]
          · exact ih

end Rows

/-- **A split function projects as the function is called** on the members of the rows. -/
theorem CarrierMap.splitLambda_projectsAs {carrier : Param} {f : Lambda} {plan : MemberPlan}
    {rows : List Value} {argss : List (List Value)} {n : Nat} (check : f.checkParams = .ok ())
    (hlen : plan.slots.length = f.params.length) (fresh : carrier.id ∉ f.body.declared)
    (known : ∀ row ∈ rows, row.Known n)
    (members : List.Forall₂ (fun row args =>
      List.Forall₂ (fun slot v => row.field? slot.name = some v) plan.slots args) rows argss)
    (depth : Nat) :
    ((ofPlan carrier f.params plan).splitLambda f).ProjectsAs depth rows n (f.call depth) argss
      (fun m => Value.Alike ((Pairing.known n n).grow (m - n))) := by
  refine Rows.projectsAs_of_agree ?_
  refine ((List.forall₂_and_left _ _).mpr ⟨known, members⟩).flip.imp fun args row h v hv => ?_
  refine splitLambda_agree_call check hlen fresh (h.2.imp fun slot u found => ?_) depth
  have member : row.member slot.name = .ok u := Value.member_of_field? found
  have there := h.1.member member
  exact ⟨member, Value.Alike.persistent hv (.known there there)⟩

/-! ## Sequences -/

namespace Source

variable {ctx : QueryContext} {s : Session} {A : Sequence} {f g : Lambda} {split : SplitState}
  {α : Type} {c : α → EvalM Value} {xs : List α} {R : Nat → Value → Value → Prop} {p : Param}

/-- **A split projection** ends as the calls of the split function do. -/
theorem selectSplit_endsAs
    (made : (splitAgainst A f).exec ctx s = (.ok g, { s with split })) (params : g.params = [p])
    (takes : A.elementTy.isAssignableTo p.ty = true)
    (projects : g.ProjectsAs ctx.callDepth A.rows s.closures c xs R) :
    EndsAs (selectSplit A f) ctx s split c xs fun vs m result =>
      result.elementTy = g.retTy ∧ List.Forall₂ (R m) vs result.rows := by
  have check : Query.checkUnary "project" g A.elementTy = .ok () := by
    simp only [Query.checkUnary, params, takes, if_true]
    rfl
  have run : (selectSplit A f).exec ctx s = (project A g).exec ctx { s with split } := by
    rw [selectSplit, QueryM.exec_bind, made]
  have computes : Computes ctx (project A g) g.retTy _ := Computes.project check
  constructor
  case result =>
    intro vs m runs
    obtain ⟨us, values, related⟩ := projects.values runs
    exact ⟨_, run.trans (computes.exec_eq_ok_iff.mpr ⟨us, m, values, rfl, rfl⟩), rfl, related⟩
  case failure =>
    intro e
    rw [run, computes.exec_eq_error_iff]
    exact projects.failure

/-- **A split filter** keeps the rows on which the calls of the split function are true. -/
theorem whereSplit_endsAs
    (made : (splitAgainst A f).exec ctx s = (.ok g, { s with split })) (params : g.params = [p])
    (takes : A.elementTy.isAssignableTo p.ty = true) (verdict : g.retTy.stripOption = .bool)
    (projects : g.ProjectsAs ctx.callDepth A.rows s.closures c xs R)
    (same : ∀ {m vs us}, List.Forall₂ (R m) vs us →
      Rows.accepted A.rows vs = Rows.accepted A.rows us) :
    EndsAs (whereSplit A f) ctx s split c xs fun vs _ result =>
      result = ⟨A.elementTy, Rows.accepted A.rows vs⟩ := by
  have check : Query.checkPredicate g A.elementTy = .ok () := by
    simp only [Query.checkPredicate, Query.checkUnary, params, takes, verdict, if_true]
    rfl
  have run : (whereSplit A f).exec ctx s = (filter A g).exec ctx { s with split } := by
    rw [whereSplit, QueryM.exec_bind, made]
  have computes : Computes ctx (filter A g) A.elementTy _ := Computes.filter check
  constructor
  case result =>
    intro vs m runs
    obtain ⟨us, values, related⟩ := projects.values runs
    have kept : Rows.filter ctx.callDepth g A.rows s.closures =
        .ok (Rows.accepted A.rows vs, m) := by
      rw [Rows.filter_eq, RowM.map_eq_ok_iff]
      exact ⟨us, values, same related⟩
    exact ⟨_, run.trans (computes.exec_eq_ok_iff.mpr ⟨_, m, kept, rfl, rfl⟩), rfl⟩
  case failure =>
    intro e
    rw [run, computes.exec_eq_error_iff, Rows.filter_eq, RowM.map_eq_error_iff]
    exact projects.failure

/-- What splitting against an element type gives, if the function does not take the element. -/
theorem exec_splitAgainst_of_split
    (parts : ∀ p, f.params = [p] → A.elementTy.isAssignableTo p.ty = false)
    (made : (ctx.splitter.split f A.elementTy).run.run s.split = (.ok g, split)) :
    (splitAgainst A f).exec ctx s = (.ok g, { s with split }) := by
  have other : takesElement f (elementTy A) = false := by
    unfold takesElement
    split
    case h_1 p params => exact parts p params
    case h_2 => rfl
  have run : (splitAgainst A f).exec ctx s =
      (QueryM.ofSplit (ctx.splitter.split f A.elementTy)).exec ctx s := by
    rw [splitAgainst, other]
    rfl
  rw [run, QueryM.exec_ofSplit, made]
  rfl

/-- A function that takes the element is not split. -/
theorem exec_splitAgainst_of_takes (params : f.params = [p])
    (takes : A.elementTy.isAssignableTo p.ty = true) :
    (splitAgainst A f).exec ctx s = (.ok f, { s with split := s.split }) := by
  have whole : takesElement f (elementTy A) = true := by
    unfold takesElement
    rw [params]
    exact takes
  rw [splitAgainst, whole]
  rfl

/-- **A split projection or filter acts on the members of each row.**  On rows that hold the members
of the plan, a projection has the values of the function on them, up to a bisimulation, and a filter
keeps the rows of which the function is true.  The first call that halts is the failure.  The
carrier's id must not be declared inside the function.  A function of one parameter that takes the
elements is called on the rows themselves. -/
theorem split_rows (ctx : QueryContext) (s : Session) (A : Sequence) (f : Lambda) :
    (∀ {g : Lambda} {after : SplitState}, ctx.splitter.Reached s.split →
      (∀ p, f.params = [p] → A.elementTy.isAssignableTo p.ty = false) →
      (ctx.splitter.split f A.elementTy).run.run s.split = (.ok g, after) →
      (∀ p ∈ g.params, p.id ∉ f.body.declared) → (∀ row ∈ A.rows, row.Known s.closures) →
      ∃ plan, ((ctx.splitter.memberPlan A.elementTy f.paramTys).run.run s.split).1 = .ok plan ∧
        ∃ R, Value.Bisimulation R ∧ ∀ argss : List (List Value),
          List.Forall₂ (fun row args =>
            List.Forall₂ (fun slot v => row.field? slot.name = some v) plan.slots args)
            A.rows argss →
          EndsAs (selectSplit A f) ctx s after (f.call ctx.callDepth) argss (fun vs m result =>
            result.elementTy = g.retTy ∧ List.Forall₂
              (R ((Pairing.known s.closures s.closures).grow (m - s.closures))) vs result.rows) ∧
          (g.retTy.stripOption = .bool →
            EndsAs (whereSplit A f) ctx s after (f.call ctx.callDepth) argss fun vs _ result =>
              result = ⟨A.elementTy, Rows.accepted A.rows vs⟩)) ∧
    ∀ {p : Param}, f.params = [p] → A.elementTy.isAssignableTo p.ty = true →
      EndsAs (selectSplit A f) ctx s s.split (fun row => f.call ctx.callDepth [row]) A.rows
        (fun vs _ result => result = ⟨f.retTy, vs⟩) ∧
      (f.retTy.stripOption = .bool →
        EndsAs (whereSplit A f) ctx s s.split (fun row => f.call ctx.callDepth [row]) A.rows
          fun vs _ result => result = ⟨A.elementTy, Rows.accepted A.rows vs⟩) := by
  constructor
  case left =>
    intro g after reached parts split fresh known
    obtain ⟨check, plan, computed, hlen, rfl⟩ := Splitter.split_eq_ok reached.remembers split
    have fresh : (ctx.splitter.nextCarrier s.split A.elementTy).id ∉ f.body.declared :=
      fresh _ (List.mem_singleton.mpr rfl)
    have takes := Ty.isAssignableTo_self A.elementTy
    have made := exec_splitAgainst_of_split parts split
    refine ⟨plan, ?_, Value.Alike, Value.Alike.bisimulation, fun argss members => ?_⟩
    · obtain ⟨cache, -, run⟩ := Splitter.memberPlan_run reached.remembers A.elementTy f.paramTys
      rw [run, computed]
    · have projects := CarrierMap.splitLambda_projectsAs check hlen fresh known members ctx.callDepth
      exact ⟨selectSplit_endsAs made rfl takes projects, fun verdict =>
        whereSplit_endsAs made rfl takes verdict projects Rows.accepted_alike⟩
  case right =>
    intro p params takes
    have made : (splitAgainst A f).exec ctx s = (.ok f, { s with split := s.split }) :=
      exec_splitAgainst_of_takes params takes
    have projects := Rows.projectsAs_call f ctx.callDepth A.rows s.closures
    have equal : ∀ {vs us : List Value}, List.Forall₂ (fun v u => v = u) vs us → vs = us :=
      fun h => List.forall₂_eq_eq_eq ▸ h
    constructor
    · refine (selectSplit_endsAs made params takes projects).imp fun vs m result h => ?_
      obtain ⟨ty, rows⟩ := result
      obtain ⟨rfl, same⟩ := h
      rw [equal same]
    · exact fun verdict => whereSplit_endsAs made params takes verdict projects fun same => by
        rw [equal same]

/-- A context with points in the plane. -/
def pointContext : QueryContext := { splitter := Splitter.points, callDepth := 8 }

/-- Points as a sequence. -/
def pointRows (xs : List (Int64 × Int64)) : Sequence :=
  ⟨.con "Point", xs.map fun (x, y) => .record "Point" [("x", .int x), ("y", .int y)]⟩

/-- `|x, y| x / y`. -/
def quotient : Lambda :=
  let x : Param := ⟨⟨100⟩, "x", .int⟩
  let y : Param := ⟨⟨101⟩, "y", .int⟩
  ⟨[x, y], .binaryOf (.arith .div) (.param x) (.param y)⟩

/-- `|x, y| x / y == 2`. -/
def quotientIsTwo : Lambda := ⟨quotient.params, .binaryOf .eq quotient.body (.lit (.int 2))⟩

/-- `|p: Point| p.x`. -/
def abscissa : Lambda :=
  let p : Param := ⟨⟨100⟩, "p", .con "Point"⟩
  ⟨[p], .member (.param p) "x" .int⟩

theorem known_pointRows (xs : List (Int64 × Int64)) (n : Nat) :
    ∀ row ∈ (pointRows xs).rows, row.Known n := by
  intro row hrow
  obtain ⟨x, -, rfl⟩ := List.mem_map.mp hrow
  exact fun _ h => nomatch h

/-- The members of points, as a plan for two whole numbers finds them. -/
theorem members_pointRows (xs : List (Int64 × Int64)) :
    List.Forall₂ (fun row args =>
      List.Forall₂ (fun (slot : MemberSlot) v => row.field? slot.name = some v)
        [⟨0, "x", .int⟩, ⟨1, "y", .int⟩] args)
      (pointRows xs).rows (xs.map fun (x, y) => [.int x, .int y]) := by
  rw [pointRows, List.forall₂_map_left_iff, List.forall₂_map_right_iff, List.forall₂_same]
  exact fun _ _ => .cons rfl (.cons rfl .nil)

/-- Quotients of the members of points; the one point that has none is the failure.  Points whose
quotient is 2 are kept.  A function of points is called on the points. -/
theorem split_rows_points :
    (∃ s', (selectSplit (pointRows [(6, 3), (9, 3)]) quotient).exec pointContext {} =
      (.ok ⟨.int, [.int 2, .int 3]⟩, s')) ∧
    ((selectSplit (pointRows [(6, 3), (1, 0), (9, 3)]) quotient).exec pointContext {}).1 =
      .error (.eval .divisionByZero) ∧
    (∃ s', (whereSplit (pointRows [(6, 3), (9, 3), (6, 3)]) quotientIsTwo).exec pointContext {} =
      (.ok (pointRows [(6, 3), (6, 3)]), s')) ∧
    ∃ s', (selectSplit (pointRows [(6, 3)]) abscissa).exec pointContext {} =
      (.ok ⟨.int, [.int 6]⟩, s') := by
  refine ⟨?_, ?_, ?_, ?_⟩
  · obtain ⟨plan, planned, R, bisim, ends⟩ := (split_rows pointContext {}
      (pointRows [(6, 3), (9, 3)]) quotient).1 (.start {}) (fun _ h => nomatch h) rfl (by decide)
      (known_pointRows _ _)
    cases planned
    obtain ⟨⟨ty, rows⟩, run, rfl, related⟩ :=
      (ends _ (members_pointRows _)).1.result (.cons rfl (.cons rfl .nil))
    obtain ⟨u, us, first, rest, rfl⟩ := List.forall₂_cons_left_iff.mp related
    obtain ⟨u', us', second, none, rfl⟩ := List.forall₂_cons_left_iff.mp rest
    cases none
    obtain rfl := bisim.eq_of_closureFree first rfl
    obtain rfl := bisim.eq_of_closureFree second rfl
    exact ⟨_, run⟩
  · obtain ⟨plan, planned, R, -, ends⟩ := (split_rows pointContext {}
      (pointRows [(6, 3), (1, 0), (9, 3)]) quotient).1 (.start {}) (fun _ h => nomatch h) rfl
      (by decide) (known_pointRows _ _)
    cases planned
    exact (ends _ (members_pointRows _)).1.failure.mpr
      ⟨.fault .divisionByZero, .later rfl (.first rfl), rfl⟩
  · obtain ⟨plan, planned, R, -, ends⟩ := (split_rows pointContext {}
      (pointRows [(6, 3), (9, 3), (6, 3)]) quotientIsTwo).1 (.start {}) (fun _ h => nomatch h) rfl
      (by decide) (known_pointRows _ _)
    cases planned
    obtain ⟨_, run, rfl⟩ :=
      ((ends _ (members_pointRows _)).2 rfl).result (.cons rfl (.cons rfl (.cons rfl .nil)))
    exact ⟨_, run⟩
  · obtain ⟨_, run, rfl⟩ := ((split_rows pointContext {} (pointRows [(6, 3)]) abscissa).2 rfl
      rfl).1.result (.cons rfl .nil)
    exact ⟨_, run⟩

end Source

end RowQuery
