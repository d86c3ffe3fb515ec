import RowQuery.Proofs.Query.JoinPairs
import RowQuery.Proofs.Split.Equivalence

/-!
# Operations on alike rows

Two runs of an operation on rows, with functions that do the same, end with alike rows.  The rows
of the two runs may differ in the numbers of their closures, and the functions in the carriers that
splitting gave them.

* `Lambda.Alike` — functions of one parameter that behave alike on alike rows.
* `Rows.keyed_agree`, `Rows.correlate_agree`, `Rows.flatten_alike`, `Rows.project_agree`,
  `Rows.filter_agree`, `Rows.union_alike` — the operations.
* **`Sequence.Alike`** — sequences of one type with alike rows; the operations on sequences respect
  it.
-/

namespace RowQuery

/-! ## Functions of one parameter -/

/-- **Functions that do the same**: their types are the same, and they behave alike on alike
rows. -/
structure Lambda.Alike (f g : Lambda) : Prop where
  paramTys_eq : f.paramTys = g.paramTys
  retTy_eq : f.retTy = g.retTy
  call : ∀ {w : Pairing} {row row' : Value}, row.Alike w row' → ∀ depth,
    Agree w Value.Alike (f.call depth [row]) (g.call depth [row'])

/-- Every function does what it does. -/
theorem Lambda.Alike.refl (f : Lambda) : f.Alike f :=
  ⟨rfl, rfl, fun h depth => f.call_agree depth (.cons h .nil)⟩

/-- **Two split functions that differ in the carrier's id** do the same. -/
theorem Lambda.Alike.split {f : Lambda} {plan : MemberPlan} {carrier carrier' : Param}
    (check : f.checkParams = .ok ()) (hlen : plan.slots.length = f.params.length)
    (types : carrier.ty = carrier'.ty) (fresh : carrier.id ∉ f.body.declared)
    (fresh' : carrier'.id ∉ f.body.declared) :
    Lambda.Alike ((CarrierMap.ofPlan carrier f.params plan).splitLambda f)
      ((CarrierMap.ofPlan carrier' f.params plan).splitLambda f) where
  paramTys_eq := congrArg (fun ty => [ty]) types
  retTy_eq :=
    CarrierMap.retTy_splitLambda carrier carrier' rfl check check hlen hlen fun _ => rfl
  call h depth := CarrierMap.splitLambda_agree check hlen fresh fresh' h depth

namespace Agree

variable {α β : Type} {w : Pairing} {R : Pairing → α → β → Prop}

/-- Evaluations that agree do so on rows. -/
theorem ofEval {c : EvalM α} {d : EvalM β} (h : Agree w R c d) :
    Agree w R (RowM.ofEval c) (RowM.ofEval d) := by
  unfold Agree RowM.ofEval at *
  revert h
  cases c w.left with
  | ok x =>
      cases d w.right with
      | ok y => exact fun h => h
      | error e => exact fun h => h.elim
  | error e =>
      cases d w.right with
      | ok y => exact fun h => h.elim
      | error e' =>
          rintro rfl
          cases e <;> exact rfl

/-- Outcomes that are related make no closures. -/
theorem ofExcept : ∀ {r : Except QueryError α} {s : Except QueryError β}, Outcomes (R w) r s →
    Agree w R (RowM.ofExcept r) (RowM.ofExcept s)
  | .ok _, .ok _, h => Agree.pure h
  | .error _, .error _, h => h

end Agree

namespace Rows

variable {w : Pairing} {f g : Lambda} {rows rows' : List Value}

/-- Rows beside alike keys.  What else holds of the rows is kept. -/
theorem keyed_agree {S : Pairing → Value → Value → Prop} (hS : Persistent S) (hfg : f.Alike g)
    (h : List.Forall₂ (fun row row' => row.Alike w row' ∧ S w row row') rows rows') (depth : Nat) :
    Agree w (fun v => List.Forall₂ fun x x' => x.1.Alike v x'.1 ∧ S v x.2 x'.2)
      (keyed depth f rows) (keyed depth g rows') := by
  refine Agree.mapM (R := fun v (x x' : Value × Value) => x.1.Alike v x'.1 ∧ S v x.2 x'.2)
    ?_ (h.imp ?_) w le_rfl
  · exact fun _ _ hv _ _ hx => ⟨Value.Alike.persistent hv hx.1, hS hv hx.2⟩
  · intro row row' hrow v hv
    have call := Agree.ofEval (hfg.call (Value.Alike.persistent hv hrow.1) depth)
    refine call.bind fun k key key' hkey => ?_
    exact Agree.pure ⟨hkey, hS (hv.trans (v.le_grow k)) hrow.2⟩

theorem keysMatch_alike (nullKeysMatch : Bool) {k k' l l' : Value} (hk : k.Alike w k')
    (hl : l.Alike w l') : keysMatch nullKeysMatch k l = keysMatch nullKeysMatch k' l' := by
  have equal : (k == l) = (k' == l') := hk.same_eq hl
  have absent : k.isNull = k'.isNull := by cases hk <;> rfl
  rw [keysMatch, keysMatch, equal, absent]

theorem partners_alike (nullKeysMatch : Bool) {S : Value → Value → Prop} {k k' : Value}
    {xs xs' : List (Value × Value)} (hk : k.Alike w k')
    (h : List.Forall₂ (fun x x' => x.1.Alike w x'.1 ∧ S x.2 x'.2) xs xs') :
    List.Forall₂ S (partners nullKeysMatch k xs) (partners nullKeysMatch k' xs') := by
  induction h with
  | nil => exact .nil
  | @cons x x' xs xs' hx _ ih =>
      unfold partners at ih ⊢
      rw [List.filter_cons, List.filter_cons, keysMatch_alike nullKeysMatch hk hx.1]
      split
      · exact .cons hx.2 ih
      · exact ih

theorem groupings_alike (nullKeysMatch : Bool) {outer outer' inner inner' : List (Value × Value)}
    (houter : List.Forall₂ (fun x x' => x.1.Alike w x'.1 ∧ x.2.Alike w x'.2) outer outer')
    (hinner : List.Forall₂ (fun x x' => x.1.Alike w x'.1 ∧ x.2.Alike w x'.2) inner inner') :
    List.Forall₂ (Value.Alike w) (groupings nullKeysMatch outer inner)
      (groupings nullKeysMatch outer' inner') := by
  unfold groupings
  rw [List.forall₂_map_left_iff, List.forall₂_map_right_iff]
  refine houter.imp fun x x' hx => ?_
  have members := partners_alike nullKeysMatch hx.1 hinner
  exact Value.Alike.record_iff.mpr
    ⟨rfl, .cons ⟨rfl, hx.2⟩ (.cons ⟨rfl, Value.Alike.list_iff.mpr members⟩ .nil)⟩

/-- **Correlation** of alike rows gives alike groupings. -/
theorem correlate_agree (nullKeysMatch : Bool) {outerKey outerKey' innerKey innerKey' : Lambda}
    (houterKey : outerKey.Alike outerKey') (hinnerKey : innerKey.Alike innerKey')
    {outer outer' inner inner' : List Value} (houter : List.Forall₂ (Value.Alike w) outer outer')
    (hinner : List.Forall₂ (Value.Alike w) inner inner') (depth : Nat) :
    Agree w (fun v => List.Forall₂ (Value.Alike v))
      (correlate depth nullKeysMatch outerKey innerKey outer inner)
      (correlate depth nullKeysMatch outerKey' innerKey' outer' inner') := by
  have both : ∀ {v : Pairing} {xs xs' : List Value}, List.Forall₂ (Value.Alike v) xs xs' →
      List.Forall₂ (fun x x' => x.Alike v x' ∧ x.Alike v x') xs xs' :=
    fun h => h.imp fun _ _ hx => ⟨hx, hx⟩
  refine (keyed_agree Value.Alike.persistent hinnerKey (both hinner) depth).bind
    fun k keyed keyed' hkeyed => ?_
  have houter := both (houter.imp fun _ _ h => Value.Alike.persistent (w.le_grow k) h)
  refine (keyed_agree Value.Alike.persistent houterKey houter depth).bind
    fun l others others' hothers => ?_
  simp only [KeyTable.rows_ofRows]
  refine Agree.pure (groupings_alike nullKeysMatch hothers (hkeyed.imp fun x x' hx => ?_))
  have stay := Value.Alike.persistent ((w.grow k).le_grow l)
  exact ⟨stay hx.1, stay hx.2⟩

theorem joinRow_alike {outer outer' inner inner' : Value} (houter : outer.Alike w outer')
    (hinner : inner.Alike w inner') :
    (JoinRow.value outer inner).Alike w (JoinRow.value outer' inner') :=
  Value.Alike.record_iff.mpr ⟨rfl, .cons ⟨rfl, houter⟩ (.cons ⟨rfl, hinner⟩ .nil)⟩

theorem flattenOne_alike {row row' : Value} (h : row.Alike w row') :
    Outcomes (List.Forall₂ (Value.Alike w)) (flattenOne row) (flattenOne row') := by
  have houter := h.field? Grouping.outer
  have hgroup := h.field? Grouping.group
  unfold flattenOne
  generalize row.field? Grouping.outer = outer at houter ⊢
  generalize row'.field? Grouping.outer = outer' at houter ⊢
  generalize row.field? Grouping.group = group at hgroup ⊢
  generalize row'.field? Grouping.group = group' at hgroup ⊢
  cases houter with
  | none => exact rfl
  | some houter =>
      cases hgroup with
      | none => exact rfl
      | some hgroup =>
          have same := hgroup
          cases hgroup with
          | list =>
              cases Value.Alike.list_iff.mp same with
              | nil => exact .cons (joinRow_alike houter .null) .nil
              | cons hm hms =>
                  refine List.Forall₂.cons (joinRow_alike houter hm) ?_
                  rw [List.forall₂_map_left_iff, List.forall₂_map_right_iff]
                  exact hms.imp fun _ _ h => joinRow_alike houter h
          | _ => exact rfl

/-- **Flattening** alike rows gives alike join rows, or fails alike. -/
theorem flatten_alike (h : List.Forall₂ (Value.Alike w) rows rows') :
    Outcomes (List.Forall₂ (Value.Alike w)) (flatten rows) (flatten rows') :=
  (Outcomes.mapM (h.imp fun _ _ => flattenOne_alike)).bind fun _ _ h => List.rel_flatten h

/-- **Projection** of alike rows with functions that do the same. -/
theorem project_agree (hfg : f.Alike g) (h : List.Forall₂ (Value.Alike w) rows rows')
    (depth : Nat) :
    Agree w (fun v => List.Forall₂ (Value.Alike v)) (project depth f rows)
      (project depth g rows') := by
  refine Agree.mapM Value.Alike.persistent (h.imp fun row row' hrow v hv => ?_) w le_rfl
  exact Agree.ofEval (hfg.call (Value.Alike.persistent hv hrow) depth)

/-- **Filtering** alike rows with predicates that do the same keeps alike rows. -/
theorem filter_agree (hfg : f.Alike g) (h : List.Forall₂ (Value.Alike w) rows rows')
    (depth : Nat) :
    Agree w (fun v => List.Forall₂ (Value.Alike v)) (filter depth f rows)
      (filter depth g rows') := by
  induction rows generalizing w rows' with
  | nil =>
      cases h
      exact Agree.pure .nil
  | cons row rows ih =>
      obtain ⟨row', rest', hrow, hrest, rfl⟩ := List.forall₂_cons_left_iff.mp h
      simp only [filter]
      refine (Agree.ofEval (hfg.call hrow depth)).bind fun k verdict verdict' hverdict => ?_
      have later := hrest.imp fun _ _ h => Value.Alike.persistent (w.le_grow k) h
      refine (ih later).bind fun l kept kept' hkept => ?_
      have same : isTrue verdict = isTrue verdict' := by cases hverdict <;> rfl
      rw [same]
      refine Agree.pure ?_
      split
      · refine .cons (Value.Alike.persistent ?_ hrow) hkept
        exact (w.le_grow k).trans (Pairing.le_grow _ l)
      · exact hkept

/-- The first members of each value are alike. -/
theorem distinctBy_alike (h : List.Forall₂ (Value.Alike w) rows rows') :
    List.Forall₂ (Value.Alike w) (distinctBy id rows) (distinctBy id rows') := by
  have keep : ∀ {row row' : Value} {xs xs' : List Value}, row.Alike w row' →
      List.Forall₂ (Value.Alike w) xs xs' →
      List.Forall₂ (Value.Alike w) (xs.filter fun y => !(row == y))
        (xs'.filter fun y => !(row' == y)) := by
    intro row row' xs xs' hrow hxs
    induction hxs with
    | nil => exact .nil
    | @cons x x' xs xs' hx _ ih =>
        have equal : (row == x) = (row' == x') := hrow.same_eq hx
        rw [List.filter_cons, List.filter_cons, equal]
        split
        · exact .cons hx ih
        · exact ih
  induction h with
  | nil => exact .nil
  | cons hrow _ ih => exact .cons hrow (keep hrow ih)

/-- **Union** of alike rows drops the same ones. -/
theorem union_alike {others others' : List Value} (h : List.Forall₂ (Value.Alike w) rows rows')
    (hothers : List.Forall₂ (Value.Alike w) others others') :
    List.Forall₂ (Value.Alike w) (union rows others) (union rows' others') :=
  distinctBy_alike (List.rel_append h hothers)

end Rows

/-! ## Checks -/

namespace Query

variable {f f' g g' : Lambda}

/-- The check of a function in terms of the types of its parameters. -/
private theorem checkUnary_eq (op : String) (f : Lambda) (element : Ty) :
    checkUnary op f element = match f.paramTys with
      | [ty] =>
          if element.isAssignableTo ty then return ()
          else throw (.selectorInputMismatch op ty element)
      | tys => throw (.split (.arityMismatch 1 tys.length)) := by
  obtain ⟨params, body⟩ := f
  rcases params with _ | ⟨p, _ | ⟨q, ps⟩⟩
  · rfl
  · rfl
  · simp [checkUnary, Lambda.paramTys, Lambda.arity]

/-- The check depends on these types alone. -/
theorem checkUnary_congr (op : String) (h : f.paramTys = g.paramTys) (element : Ty) :
    checkUnary op f element = checkUnary op g element := by
  rw [checkUnary_eq, checkUnary_eq, h]

theorem correlatedTy_congr (hf : f.Alike f') (hg : g.Alike g') (O I : Ty) :
    correlatedTy O I f g = correlatedTy O I f' g' := by
  simp only [correlatedTy, checkUnary_congr "correlate" hf.paramTys_eq,
    checkUnary_congr "correlate" hg.paramTys_eq, hf.retTy_eq, hg.retTy_eq]

theorem checkPredicate_congr (hf : f.Alike f') (element : Ty) :
    checkPredicate f element = checkPredicate f' element := by
  simp only [checkPredicate, checkUnary_congr "filter" hf.paramTys_eq, hf.retTy_eq]

end Query

/-! ## Sequences -/

namespace Sequence

/-- **Sequences of one type with alike rows.** -/
structure Alike (w : Pairing) (a b : Sequence) : Prop where
  elementTy_eq : a.elementTy = b.elementTy
  rows : List.Forall₂ (Value.Alike w) a.rows b.rows

/-- Sequences that were alike stay alike when more closures are paired. -/
theorem Alike.persistent : Persistent Alike := fun _ _ hwv _ _ h =>
  ⟨h.elementTy_eq, h.rows.imp fun _ _ hrow => Value.Alike.persistent hwv hrow⟩

variable {w : Pairing} {ctx : QueryContext} {a a' b b' : Sequence} {f f' g g' : Lambda}

/-- Rows computed after one and the same check. -/
private theorem checked_agree {α : Type} (r : Except QueryError α) (ty : α → Ty)
    {c d : RowM (List Value)} (h : ∀ k, Agree (w.grow k) (fun v => List.Forall₂ (Value.Alike v)) c d) :
    Agree w Alike (do return ⟨ty (← RowM.ofExcept r), ← c⟩) (do return ⟨ty (← RowM.ofExcept r), ← d⟩) := by
  have same : Agree w (fun _ => Eq) (RowM.ofExcept r) (RowM.ofExcept r) :=
    Agree.ofExcept (Outcomes.refl (fun _ => rfl) r)
  refine same.bind fun k x y hxy => ?_
  obtain rfl := hxy
  exact (h k).bind fun l rows rows' hrows => Agree.pure ⟨rfl, hrows⟩

theorem correlate_agree (ha : a.Alike w a') (hb : b.Alike w b') (hf : f.Alike f')
    (hg : g.Alike g') :
    Agree w Alike (a.correlate ctx b f g) (a'.correlate ctx b' f' g') := by
  unfold correlate
  rw [← ha.elementTy_eq, ← hb.elementTy_eq, ← Query.correlatedTy_congr hf hg]
  refine checked_agree _ id fun k => ?_
  have stay := w.le_grow k
  exact Rows.correlate_agree _ hf hg (Alike.persistent stay ha).rows (Alike.persistent stay hb).rows _

theorem flatten_agree (ha : a.Alike w a') :
    Agree w Alike a.flattenWithDefault a'.flattenWithDefault := by
  unfold flattenWithDefault
  rw [← ha.elementTy_eq]
  refine checked_agree _ id fun k => ?_
  exact Agree.ofExcept (Rows.flatten_alike (Alike.persistent (w.le_grow k) ha).rows)

theorem project_agree (ha : a.Alike w a') (hf : f.Alike f') :
    Agree w Alike (a.project ctx f) (a'.project ctx f') := by
  unfold project
  rw [← ha.elementTy_eq, ← Query.checkUnary_congr "project" hf.paramTys_eq, ← hf.retTy_eq]
  refine checked_agree _ (fun _ => f.retTy) fun k => ?_
  exact Rows.project_agree hf (Alike.persistent (w.le_grow k) ha).rows _

theorem filter_agree (ha : a.Alike w a') (hf : f.Alike f') :
    Agree w Alike (a.filter ctx f) (a'.filter ctx f') := by
  unfold filter
  rw [← ha.elementTy_eq, ← Query.checkPredicate_congr hf]
  refine checked_agree _ (fun _ => a.elementTy) fun k => ?_
  exact Rows.filter_agree hf (Alike.persistent (w.le_grow k) ha).rows _

theorem union_agree (ha : a.Alike w a') (hb : b.Alike w b') :
    Agree w Alike (a.union b) (a'.union b') := by
  unfold union
  rw [← ha.elementTy_eq, ← hb.elementTy_eq]
  refine checked_agree (Query.checkSameElements "union" a.elementTy b.elementTy)
    (fun _ => a.elementTy) (c := pure _) (d := pure _) fun k => ?_
  have stay := w.le_grow k
  exact Agree.pure (Rows.union_alike (Alike.persistent stay ha).rows (Alike.persistent stay hb).rows)

theorem concat_agree (ha : a.Alike w a') (hb : b.Alike w b') :
    Agree w Alike (a.concat b) (a'.concat b') := by
  unfold concat
  rw [← ha.elementTy_eq, ← hb.elementTy_eq]
  refine checked_agree (Query.checkSameElements "concat" a.elementTy b.elementTy)
    (fun _ => a.elementTy) (c := pure _) (d := pure _) fun k => ?_
  have stay := w.le_grow k
  exact Agree.pure (List.rel_append (Alike.persistent stay ha).rows (Alike.persistent stay hb).rows)

end Sequence

end RowQuery
