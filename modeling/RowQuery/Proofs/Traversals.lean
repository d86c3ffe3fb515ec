import Mathlib.Control.Basic
import RowQuery.Expr.Children

/-!
# Traversals of expressions

Visiting the children of a node and rebuilding the node from what becomes of them go over the same
children, once each and in the same order, and rebuilding changes nothing else.

* `Expr.Frame`, `Expr.frame` — what a node holds besides its children;
  `Expr.eq_of_frame_of_children` — a node has nothing else.
* `Expr.forEachChild_eq_forM`, `Expr.parts_mapChildrenM` — both traversals run over `Expr.children`,
  whatever the effects are.
* `Expr.recorded` — a function that keeps a record of its calls.
* `Expr.rebuild` — a whole tree rebuilt, level by level; `Expr.rebuild_id`.
* **`Expr.traversals_agree`** — the laws of both traversals.
-/

namespace RowQuery.Expr

/-! ## Nodes apart from their children -/

/-- **What a node holds besides its children**: its operator, names, stored types and declared
parameters. -/
inductive Frame where
  | param (p : Param)
  | lit (l : Literal)
  | member (name : String) (ty : Ty)
  | unary (op : UnaryOp) (ty : Ty)
  | binary (op : BinaryOp) (ty : Ty)
  | call (func : Builtin) (ty : Ty)
  | ite (ty : Ty)
  | construct (ty : Ty) (names : List String)
  | tuple
  | list (elemTy : Ty)
  | lambda (params : List Param)
  | invoke (ty : Ty)
  deriving DecidableEq, Repr

/-- The frame of a node. -/
def frame : Expr → Frame
  | .param p => .param p
  | .lit l => .lit l
  | .member _ name ty => .member name ty
  | .unary op _ ty => .unary op ty
  | .binary op _ _ ty => .binary op ty
  | .call func _ ty => .call func ty
  | .ite _ _ _ ty => .ite ty
  | .construct ty fields => .construct ty (fields.map (·.1))
  | .tuple _ => .tuple
  | .list elemTy _ => .list elemTy
  | .lambda params _ => .lambda params
  | .invoke _ _ ty => .invoke ty

/-- **A node is its frame and its children.** -/
theorem eq_of_frame_of_children {d e : Expr} (frames : d.frame = e.frame)
    (children : d.children = e.children) : d = e := by
  cases d with
  | construct ty fields =>
      cases e with
      | construct ty' fields' =>
          obtain ⟨rfl, names⟩ := Frame.construct.inj frames
          have same : fields = fields' :=
            (List.zip_of_prod names children).trans (List.zip_of_prod rfl rfl).symm
          rw [same]
      | _ => cases frames
  | _ => cases e <;> simp_all [frame, Expr.children]

/-- A rebuilt node has the frame of the node. -/
theorem frame_mapChildren (f : Expr → Expr) (e : Expr) : (e.mapChildren f).frame = e.frame := by
  cases e <;> simp [mapChildren, frame, Function.comp_def]

/-! ## Effects -/

section

variable {m : Type → Type} [Monad m] [LawfulMonad m]

/-- A visit runs over the children. -/
theorem forEachChild_eq_forM (visit : Expr → m Unit) (e : Expr) :
    e.forEachChild visit = forM e.children visit := by
  cases e <;> simp [forEachChild, children, List.forM_map]

/-- The fields of a record keep their names, and their values are rebuilt in order. -/
theorem parts_mapM_fields (f : Expr → m Expr) (fields : List (String × Expr)) :
    (fun images => (images.map Prod.fst, images.map Prod.snd)) <$>
        fields.mapM (fun x => (x.1, ·) <$> f x.2) =
      (fun images => (fields.map Prod.fst, images)) <$> (fields.map Prod.snd).mapM f := by
  induction fields with
  | nil => simp
  | cons x fields ih =>
      simp only [List.mapM_cons, List.map_cons, map_bind, bind_map_left, map_pure]
      refine bind_congr fun image => ?_
      have onto := congrArg (fun parts => (fun p : List String × List Expr =>
        (x.1 :: p.1, image :: p.2)) <$> parts) ih
      simpa only [Functor.map_map, bind_pure_comp] using onto

/-- **Rebuilding a node runs over the children** and keeps the frame, whatever the effects are. -/
theorem parts_mapChildrenM (f : Expr → m Expr) (e : Expr) :
    (fun d => (d.frame, d.children)) <$> e.mapChildrenM f =
      (fun images => (e.frame, images)) <$> e.children.mapM f := by
  cases e with
  | construct ty fields =>
      have onto := congrArg (fun parts => (fun p : List String × List Expr =>
        (Frame.construct ty p.1, p.2)) <$> parts) (parts_mapM_fields f fields)
      simpa [mapChildrenM, children, frame, Functor.map_map] using onto
  | _ => simp [mapChildrenM, children, frame]

/-- What a traversal of a list does, its results forgotten. -/
theorem mapM_forgotten {α β : Type} (f : α → m β) (xs : List α) :
    (fun _ => ()) <$> xs.mapM f = forM xs fun x => (fun _ => ()) <$> f x := by
  induction xs with
  | nil => simp
  | cons x xs ih =>
      rw [List.mapM_cons, List.forM_cons, ← ih]
      simp

/-- **Rebuilding a node does what visiting it does.** -/
theorem mapChildrenM_forgotten (f : Expr → m Expr) (e : Expr) :
    (fun _ => ()) <$> e.mapChildrenM f = e.forEachChild fun child => (fun _ => ()) <$> f child := by
  have effects := congrArg (fun parts => (fun _ => ()) <$> parts) (parts_mapChildrenM f e)
  simp only [Functor.map_map] at effects
  rw [effects, mapM_forgotten, forEachChild_eq_forM]

end

/-! ## Calls on record -/

/-- **A function that keeps a record of its calls**: what it is called on, in order. -/
def recorded {α : Type} (f : Expr → α) (child : Expr) : StateM (List Expr) α :=
  modifyGet fun calls => (f child, calls ++ [child])

/-- A traversal of a list calls the function on each member, in order. -/
theorem run_mapM_recorded {α : Type} (f : Expr → α) (es calls : List Expr) :
    (es.mapM (recorded f)).run calls = (es.map f, calls ++ es) := by
  induction es generalizing calls with
  | nil =>
      rw [List.append_nil]
      rfl
  | cons e es ih =>
      have rest := ih (calls ++ [e])
      rw [List.append_assoc, List.singleton_append] at rest
      rw [List.mapM_cons, List.map_cons]
      simp only [recorded, StateT.run_bind, StateT.run_modifyGet, pure_bind, rest]
      rfl

/-- Rebuilding a node calls the function on each child, in order, and gives the rebuilt node. -/
theorem run_mapChildrenM_recorded (f : Expr → Expr) (e : Expr) (calls : List Expr) :
    (e.mapChildrenM (recorded f)).run calls = (e.mapChildren f, calls ++ e.children) := by
  have parts := congrArg (fun r => r.run calls) (parts_mapChildrenM (recorded f) e)
  simp only [StateT.run_map, run_mapM_recorded] at parts
  obtain ⟨sameParts, sameCalls⟩ := Prod.mk.inj parts
  obtain ⟨frames, images⟩ := Prod.mk.inj sameParts
  refine Prod.ext (eq_of_frame_of_children ?_ ?_) sameCalls
  · exact frames.trans (frame_mapChildren f e).symm
  · exact images.trans (children_mapChildren f e).symm

/-- A visit calls the function on each child, in order.  It is a rebuilding, the result forgotten. -/
theorem run_forEachChild_recorded (e : Expr) (calls : List Expr) :
    (e.forEachChild (recorded fun _ => ())).run calls = ((), calls ++ e.children) := by
  have forgotten := mapChildrenM_forgotten (recorded id) e
  have visit : (fun child => (fun _ => ()) <$> recorded id child) = recorded fun _ => () := rfl
  rw [visit] at forgotten
  rw [← forgotten, StateT.run_map, run_mapChildrenM_recorded]
  rfl

/-! ## Whole trees -/

/-- No expression is among the expressions inside it. -/
theorem sizeOf_lt_of_mem_children {e child : Expr} (h : child ∈ e.children) :
    sizeOf child < sizeOf e := by
  have member : ∀ es : List Expr, child ∈ es → sizeOf child < sizeOf es :=
    fun _ => List.sizeOf_lt_of_mem
  cases e with
  | construct ty fields =>
      obtain ⟨⟨name, value⟩, mem, rfl⟩ := List.mem_map.mp h
      have lt := List.sizeOf_lt_of_mem mem
      simp only [construct.sizeOf_spec, Prod.mk.sizeOf_spec] at lt ⊢
      omega
  | call func args ty =>
      have lt := member args h
      simp only [call.sizeOf_spec]
      omega
  | tuple items =>
      have lt := member items h
      simp only [tuple.sizeOf_spec]
      omega
  | list elemTy items =>
      have lt := member items h
      simp only [list.sizeOf_spec]
      omega
  | invoke callee args ty =>
      have lt := member (callee :: args) h
      simp only [List.cons.sizeOf_spec, invoke.sizeOf_spec] at lt ⊢
      omega
  | param p => cases h
  | lit l => cases h
  | _ =>
      simp only [children, List.mem_cons, List.not_mem_nil, or_false] at h
      rcases h with rfl | rfl | rfl <;> simp <;> omega

/-- **Induction on expressions** with one hypothesis for all children. -/
theorem inductChildren {motive : Expr → Prop}
    (node : ∀ e, (∀ child ∈ e.children, motive child) → motive e) (e : Expr) : motive e :=
  node e fun child _ => inductChildren node child
termination_by sizeOf e
decreasing_by exact sizeOf_lt_of_mem_children ‹_›

/-- A reference or a constant, which nothing is put into. -/
def isLeaf : Expr → Bool
  | .param _ => true
  | .lit _ => true
  | _ => false

/-- **A whole tree rebuilt**, level by level from the root, with `onLeaf` at the leaves. -/
def rebuild (onLeaf : Expr → Expr) (e : Expr) : Expr :=
  if e.isLeaf then onLeaf e
  else e.mapChildren fun child =>
    if _ : child ∈ e.children then child.rebuild onLeaf else child
termination_by sizeOf e
decreasing_by exact sizeOf_lt_of_mem_children ‹_›

/-- A node that is no leaf is rebuilt from its rebuilt children. -/
theorem rebuild_eq (onLeaf : Expr → Expr) (e : Expr) :
    e.rebuild onLeaf = if e.isLeaf then onLeaf e else e.mapChildren (rebuild onLeaf) := by
  rw [rebuild]
  split
  · rfl
  · exact mapChildren_congr fun child h => dif_pos h

/-- **A tree rebuilt of its own leaves is the tree.** -/
theorem rebuild_id (e : Expr) : e.rebuild id = e := by
  induction e using inductChildren with
  | node e ih =>
      rw [rebuild_eq]
      split
      · rfl
      · rw [mapChildren_congr ih]
        exact mapChildren_id e

/-! ## The laws of traversals -/

/-- **Both traversals of a node agree.**  Rebuilding a node calls its function once on each child
that a visit comes to, in the same order, and has the same effects, whatever these are.  The
children of the rebuilt node are the images of the children, in order; its frame is that of the
node, and a node has nothing but its frame and its children.  Rebuilding with the identity changes
nothing, neither on one level nor all the way down to the leaves, and rebuilding twice is rebuilding
once. -/
theorem traversals_agree (e : Expr) :
    (∀ f : Expr → Expr, ∃ visited,
      (e.forEachChild (recorded fun _ => ())).run [] = ((), visited) ∧
      (e.mapChildrenM (recorded f)).run [] = (e.mapChildren f, visited) ∧
      visited = e.children) ∧
    (∀ (m : Type → Type) [Monad m] [LawfulMonad m] (f : Expr → m Expr),
      (fun _ => ()) <$> e.mapChildrenM f =
        e.forEachChild (fun child => (fun _ => ()) <$> f child) ∧
      (fun d => (d.frame, d.children)) <$> e.mapChildrenM f =
        (fun images => (e.frame, images)) <$> e.children.mapM f) ∧
    (∀ f : Expr → Expr,
      (e.mapChildren f).children = e.children.map f ∧ (e.mapChildren f).frame = e.frame) ∧
    (∀ d : Expr, d.frame = e.frame → d.children = e.children → d = e) ∧
    e.mapChildren id = e ∧
    (∀ f g : Expr → Expr, (e.mapChildren f).mapChildren g = e.mapChildren (g ∘ f)) ∧
    e.rebuild id = e := by
  refine ⟨fun f => ?_, fun m _ _ f => ⟨mapChildrenM_forgotten f e, parts_mapChildrenM f e⟩,
    fun f => ⟨children_mapChildren f e, frame_mapChildren f e⟩, fun d => eq_of_frame_of_children,
    mapChildren_id e, fun f g => mapChildren_mapChildren f g e, rebuild_id e⟩
  exact ⟨e.children, run_forEachChild_recorded e [], run_mapChildrenM_recorded f e [], rfl⟩

/-- A record of a number and a list of nothing, with a function called on it. -/
def invokedRecord : Expr :=
  .invoke (.construct (.con "Entry") [("key", .lit (.int 1)), ("members", .list .int [])])
    [.lit .null, .tuple []] .bool

/-- The callee comes before the arguments; where a child is refused, no node is rebuilt; and nothing
changes where nothing is replaced. -/
theorem traversals_agree_invokedRecord :
    (invokedRecord.mapChildrenM (recorded fun child => .tuple [child])).run [] =
      (.invoke
          (.tuple [.construct (.con "Entry") [("key", .lit (.int 1)), ("members", .list .int [])]])
          [.tuple [.lit .null], .tuple [.tuple []]] .bool,
        [.construct (.con "Entry") [("key", .lit (.int 1)), ("members", .list .int [])],
          .lit .null, .tuple []]) ∧
    (fun _ => ()) <$> invokedRecord.mapChildrenM (fun child => guard child.isLeaf *> some child) =
      none ∧
    invokedRecord.rebuild id = invokedRecord := by
  obtain ⟨calls, effects, -, -, -, -, whole⟩ := traversals_agree invokedRecord
  obtain ⟨visited, -, rebuilt, rfl⟩ := calls fun child => .tuple [child]
  obtain ⟨forgotten, -⟩ := effects Option fun child => guard child.isLeaf *> some child
  exact ⟨rebuilt, forgotten.trans rfl, whole⟩

end RowQuery.Expr
