import RowQuery.Proofs.Alike.Pairing
import RowQuery.Proofs.Substitution.Scope

/-!
# Values that are alike

Two values are alike in a pairing of closures if they are the same data, with paired closures in
the same places that come from one function: its free parameters were replaced by paths, possibly
others on each side, and what the paths read in the two captured environments is alike again.

* `Value.Alike` — the relation.
* `Expr.ReadAlike` — an expression with two substitutions whose paths read alike.
* `Value.closureIds` — the closures in a value, those that other closures captured included.
* **`Value.Alike.same_eq`**, `Value.Alike.text_eq` — alike values are equal in the same cases and
  are shown alike.
* `Value.Alike.refl` — a value whose closures are paired with themselves is alike itself.
-/

namespace RowQuery

namespace Value

/-- **Values that are alike.**  The closure rule: `body` is the common function, `b` and `c` are
what replaced its free parameters, and `u`, `v` what they read in the captured environments; a path
without a value fails alike on both sides. -/
inductive Alike (w : Pairing) : Value → Value → Prop
  | unit : Alike w .unit .unit
  | null : Alike w .null .null
  | bool (b : Bool) : Alike w (.bool b) (.bool b)
  | int (n : Int64) : Alike w (.int n) (.int n)
  | str (s : String) : Alike w (.str s) (.str s)
  | tuple {as bs : List Value} (length_eq : as.length = bs.length)
      (members : ∀ x ∈ as.zip bs, Alike w x.1 x.2) : Alike w (.tuple as) (.tuple bs)
  | list {as bs : List Value} (length_eq : as.length = bs.length)
      (members : ∀ x ∈ as.zip bs, Alike w x.1 x.2) : Alike w (.list as) (.list bs)
  | record (name : String) {as bs : List (String × Value)}
      (names_eq : as.map Prod.fst = bs.map Prod.fst)
      (members : ∀ x ∈ as.zip bs, Alike w x.1.2 x.2.2) : Alike w (.record name as) (.record name bs)
  | closure {i j : Nat} {params : List Param} {body : Expr} {b c : Bindings} {env env' : Env}
      {u v : Param → Value} (paired : w.rel i j) (left : b.Into (.lambda params body))
      (right : c.Into (.lambda params body))
      (reads : ∀ p ∈ (Expr.lambda params body).freeRefs,
        Outcomes (fun x y => x = u p ∧ y = v p)
          (((Expr.param p).subst b).read env) (((Expr.param p).subst c).read env'))
      (captured : ∀ p ∈ (Expr.lambda params body).freeRefs, Alike w (u p) (v p)) :
      Alike w (.closure i ⟨params, body.subst (b.without params)⟩ env)
        (.closure j ⟨params, body.subst (c.without params)⟩ env')

end Value

/-- **An expression whose substitutions read alike**: paths that are not captured inside, and whose
values in the two environments are alike. -/
structure Expr.ReadAlike (w : Pairing) (e : Expr) (b c : Bindings) (env env' : Env) : Prop where
  left : b.Into e
  right : c.Into e
  reads : ∀ p ∈ e.freeRefs, Outcomes (Value.Alike w)
    (((Expr.param p).subst b).read env) (((Expr.param p).subst c).read env')

/-- Entries are related one by one if the keys are the same and the values are related. -/
theorem forall₂_entries_iff {κ α β : Type} {R : α → β → Prop} {xs : List (κ × α)}
    {ys : List (κ × β)} :
    List.Forall₂ (fun x y => x.1 = y.1 ∧ R x.2 y.2) xs ys ↔
      xs.map Prod.fst = ys.map Prod.fst ∧ ∀ x ∈ xs.zip ys, R x.1.2 x.2.2 := by
  induction xs generalizing ys with
  | nil => cases ys <;> simp
  | cons x xs ih =>
      cases ys with
      | nil => simp
      | cons y ys =>
          rw [List.forall₂_cons, ih]
          simp only [List.map_cons, List.cons.injEq, List.zip_cons_cons, List.forall_mem_cons]
          tauto

/-- Lists that are related by having equal images have equal images. -/
theorem map_eq_map_of_forall₂ {α β γ : Type} {f : α → γ} {g : β → γ} {xs : List α} {ys : List β}
    (h : List.Forall₂ (fun x y => f x = g y) xs ys) : xs.map f = ys.map g := by
  rw [← List.forall₂_eq_eq_eq, List.forall₂_map_left_iff, List.forall₂_map_right_iff]
  exact h

namespace Value.Alike

variable {w v : Pairing}

/-! ## Members -/

theorem tuple_iff {as bs : List Value} :
    Alike w (.tuple as) (.tuple bs) ↔ List.Forall₂ (Alike w) as bs := by
  rw [List.forall₂_iff_zip]
  constructor
  · rintro (_ | _ | _ | _ | _ | ⟨length_eq, members⟩)
    exact ⟨length_eq, fun hab => members _ hab⟩
  · rintro ⟨length_eq, members⟩
    exact .tuple length_eq fun x hx => members hx

theorem list_iff {as bs : List Value} :
    Alike w (.list as) (.list bs) ↔ List.Forall₂ (Alike w) as bs := by
  rw [List.forall₂_iff_zip]
  constructor
  · rintro (_ | _ | _ | _ | _ | _ | ⟨length_eq, members⟩)
    exact ⟨length_eq, fun hab => members _ hab⟩
  · rintro ⟨length_eq, members⟩
    exact .list length_eq fun x hx => members hx

/-- Fields that are alike: the same names in the same order, with values that are alike. -/
def Fields (w : Pairing) : List (String × Value) → List (String × Value) → Prop :=
  List.Forall₂ fun x y => x.1 = y.1 ∧ Alike w x.2 y.2

theorem fields_iff {as bs : List (String × Value)} :
    Fields w as bs ↔
      as.map Prod.fst = bs.map Prod.fst ∧ ∀ x ∈ as.zip bs, Alike w x.1.2 x.2.2 :=
  forall₂_entries_iff

theorem record_iff {m n : String} {as bs : List (String × Value)} :
    Alike w (.record m as) (.record n bs) ↔ m = n ∧ Fields w as bs := by
  rw [fields_iff]
  constructor
  · rintro (_ | _ | _ | _ | _ | _ | _ | ⟨_, names_eq, members⟩)
    exact ⟨rfl, names_eq, members⟩
  · rintro ⟨rfl, names_eq, members⟩
    exact .record m names_eq members

/-! ## Closures -/

/-- Closures over one function whose substitutions read alike are alike. -/
theorem ofReadAlike {i j : Nat} {params : List Param} {body : Expr} {b c : Bindings}
    {env env' : Env} (paired : w.rel i j)
    (h : (Expr.lambda params body).ReadAlike w b c env env') :
    Alike w (.closure i ⟨params, body.subst (b.without params)⟩ env)
      (.closure j ⟨params, body.subst (c.without params)⟩ env') := by
  have values : ∀ p ∈ (Expr.lambda params body).freeRefs, ∃ u v,
      Outcomes (fun x y => x = u ∧ y = v)
        (((Expr.param p).subst b).read env) (((Expr.param p).subst c).read env') ∧
      Alike w u v := by
    intro p hp
    have reads := h.reads p hp
    generalize ((Expr.param p).subst b).read env = r at reads
    generalize ((Expr.param p).subst c).read env' = s at reads
    match r, s, reads with
    | .ok x, .ok y, hxy => exact ⟨x, y, ⟨rfl, rfl⟩, hxy⟩
    | .error _, .error _, he => exact ⟨.null, .null, he, .null⟩
  choose! u v reads captured using values
  exact .closure paired h.left h.right reads captured

/-- What alike closures have in common. -/
theorem closure_inv {i j : Nat} {f g : Lambda} {env env' : Env}
    (h : Alike w (.closure i f env) (.closure j g env')) :
    w.rel i j ∧ ∃ params body b c, f = ⟨params, body.subst (b.without params)⟩ ∧
      g = ⟨params, body.subst (c.without params)⟩ ∧
      (Expr.lambda params body).ReadAlike w b c env env' := by
  cases h with
  | @closure _ _ params body b c _ _ u v paired left right reads captured =>
      refine ⟨paired, params, body, b, c, rfl, rfl, left, right, fun p hp => ?_⟩
      refine Outcomes.imp ?_ (reads p hp)
      rintro x y ⟨rfl, rfl⟩
      exact captured p hp

/-- What was alike stays alike when more closures are paired. -/
theorem persistent : Persistent Alike := by
  intro w v hwv a b h
  induction h with
  | unit => exact .unit
  | null => exact .null
  | bool b => exact .bool b
  | int n => exact .int n
  | str s => exact .str s
  | tuple length_eq _ ih => exact .tuple length_eq ih
  | list length_eq _ ih => exact .list length_eq ih
  | record name names_eq _ ih => exact .record name names_eq ih
  | closure paired left right reads _ ih => exact .closure (hwv _ _ paired) left right reads ih

/-! ## Equality and text -/

private theorem sameList_congr {as as' bs bs' : List Value} (length_eq : as.length = as'.length)
    (h : ∀ x ∈ as.zip as', ∀ {b b' : Value}, Alike w b b' → x.1.same b = x.2.same b')
    (hb : List.Forall₂ (Alike w) bs bs') : sameList as bs = sameList as' bs' := by
  induction hb generalizing as as' with
  | nil => cases as <;> cases as' <;> simp_all [sameList]
  | cons hbb _ ih =>
      match as, as', length_eq with
      | [], [], _ => rfl
      | a :: as, a' :: as', length_eq =>
          rw [sameList, sameList, h (a, a') (by simp) hbb, ih (by simpa using length_eq)]
          exact fun x hx => h x (by simp [hx])

private theorem sameFields_congr {as as' bs bs' : List (String × Value)}
    (names_eq : as.map Prod.fst = as'.map Prod.fst)
    (h : ∀ x ∈ as.zip as', ∀ {b b' : Value}, Alike w b b' → x.1.2.same b = x.2.2.same b')
    (hb : Fields w bs bs') : sameFields as bs = sameFields as' bs' := by
  induction hb generalizing as as' with
  | nil => cases as <;> cases as' <;> simp_all [sameFields]
  | @cons x y _ _ hbb _ ih =>
      match as, as', names_eq with
      | [], [], _ => rfl
      | (m, a) :: as, (m', a') :: as', names_eq =>
          obtain ⟨n, b⟩ := x
          obtain ⟨n', b'⟩ := y
          obtain ⟨rfl, hbb⟩ := hbb
          simp only [List.map_cons, List.cons.injEq] at names_eq
          obtain ⟨rfl, names_eq⟩ := names_eq
          rw [sameFields, sameFields, h ((m, a), (m, a')) (by simp) hbb, ih names_eq]
          exact fun x hx => h x (by simp [hx])

/-- **Alike values are equal in the same cases.**  For closures this is what the pairing is
one-to-one for. -/
theorem same_eq {a a' b b' : Value} (ha : Alike w a a') (hb : Alike w b b') :
    a.same b = a'.same b' := by
  induction ha generalizing b b' with
  | unit => cases hb <;> simp [same]
  | null => cases hb <;> simp [same]
  | bool _ => cases hb <;> simp [same]
  | int _ => cases hb <;> simp [same]
  | str _ => cases hb <;> simp [same]
  | tuple length_eq _ ih =>
      cases hb with
      | tuple length_eq' members =>
          exact sameList_congr length_eq ih (tuple_iff.mp (.tuple length_eq' members))
      | _ => simp [same]
  | list length_eq _ ih =>
      cases hb with
      | list length_eq' members =>
          exact sameList_congr length_eq ih (list_iff.mp (.list length_eq' members))
      | _ => simp [same]
  | record name names_eq _ ih =>
      cases hb with
      | record name' names_eq' members =>
          rw [same, same, sameFields_congr names_eq ih (fields_iff.mpr ⟨names_eq', members⟩)]
      | _ => simp [same]
  | closure paired =>
      cases hb with
      | closure paired' =>
          simp only [same]
          rw [Bool.eq_iff_iff, beq_iff_eq, beq_iff_eq]
          exact w.unique paired paired'
      | _ => simp [same]

/-- **Alike values are shown alike.** -/
theorem text_eq {a b : Value} (h : Alike w a b) : a.text = b.text := by
  induction h with
  | tuple length_eq _ ih =>
      rw [text, text, texts_eq_map, texts_eq_map, map_eq_map_of_forall₂]
      exact List.forall₂_iff_zip.mpr ⟨length_eq, fun hx => ih _ hx⟩
  | list length_eq _ ih =>
      rw [text, text, texts_eq_map, texts_eq_map, map_eq_map_of_forall₂]
      exact List.forall₂_iff_zip.mpr ⟨length_eq, fun hx => ih _ hx⟩
  | record name names_eq _ ih =>
      have entries := forall₂_entries_iff (R := fun a b => a.text = b.text) |>.mpr ⟨names_eq, ih⟩
      rw [text, text, fieldTexts_eq_map, fieldTexts_eq_map, map_eq_map_of_forall₂]
      exact entries.imp fun _ _ hx => Prod.ext hx.1 hx.2
  | closure => simp [text, Lambda.arity]
  | _ => rfl

/-- Alike values stand alike inside of other text. -/
theorem render_eq {a b : Value} (h : Alike w a b) : a.render = b.render := by
  have htext := h.text_eq
  cases h <;> first | rfl | exact htext

end Value.Alike

/-! ## Values alike themselves -/

namespace Value

mutual

/-- **The closures in a value**, by number; those that other closures captured are included. -/
def closureIds : Value → List Nat
  | .tuple items => closureIdsList items
  | .list items => closureIdsList items
  | .record _ fields => closureIdsFields fields
  | .closure id _ captured => id :: closureIdsEnv captured
  | _ => []

/-- The closures in the members of a list. -/
def closureIdsList : List Value → List Nat
  | [] => []
  | v :: vs => v.closureIds ++ closureIdsList vs

/-- The closures in the values of fields. -/
def closureIdsFields : List (String × Value) → List Nat
  | [] => []
  | (_, v) :: fs => v.closureIds ++ closureIdsFields fs

/-- The closures in captured values. -/
def closureIdsEnv : Env → List Nat
  | [] => []
  | (_, v) :: env => v.closureIds ++ closureIdsEnv env

end

@[simp]
theorem closureIdsList_eq_flatMap (vs : List Value) :
    closureIdsList vs = vs.flatMap closureIds := by
  induction vs with
  | nil => rfl
  | cons v vs ih => simp [closureIdsList, ih]

@[simp]
theorem closureIdsFields_eq_flatMap (fs : List (String × Value)) :
    closureIdsFields fs = fs.flatMap fun f => f.2.closureIds := by
  induction fs with
  | nil => rfl
  | cons f fs ih => simp [closureIdsFields, ih]

@[simp]
theorem closureIdsEnv_eq_flatMap (env : Env) :
    closureIdsEnv env = env.flatMap fun x => x.2.closureIds := by
  induction env with
  | nil => rfl
  | cons x env ih => simp [closureIdsEnv, ih]

/-- A value without closures. -/
def ClosureFree (v : Value) : Prop := v.closureIds = []

theorem closureFree_tuple {items : List Value} :
    (tuple items).ClosureFree ↔ ∀ v ∈ items, v.ClosureFree := by
  simp [ClosureFree, closureIds]

theorem closureFree_list {items : List Value} :
    (list items).ClosureFree ↔ ∀ v ∈ items, v.ClosureFree := by
  simp [ClosureFree, closureIds]

theorem closureFree_record {name : String} {fields : List (String × Value)} :
    (record name fields).ClosureFree ↔ ∀ f ∈ fields, f.2.ClosureFree := by
  simp [ClosureFree, closureIds]

/-- **A value that is there already** when the next closure has number `n`. -/
def Known (n : Nat) (v : Value) : Prop := ∀ i ∈ v.closureIds, i < n

/-- A field is a member. -/
theorem member_of_field? {row v : Value} {name : String} (h : row.field? name = some v) :
    row.member name = .ok v := by
  cases row with
  | record _ fields =>
      have found : fields.lookup name = some v := h
      simp only [member, found]
      rfl
  | _ => cases h

theorem Known.member {row v : Value} {name : String} {n : Nat} (known : row.Known n)
    (h : row.member name = .ok v) : v.Known n := by
  cases row with
  | null =>
      cases h
      exact known
  | record _ fields =>
      simp only [Value.member] at h
      cases found : fields.lookup name with
      | none =>
          rw [found] at h
          cases h
      | some u =>
          rw [found] at h
          cases h
          intro i hi
          refine known i ?_
          simp only [closureIds, closureIdsFields_eq_flatMap, List.mem_flatMap]
          exact ⟨(name, v), mem_of_lookup found, hi⟩
  | _ => cases h

namespace Alike

variable {w : Pairing}

/-- **A value whose closures are paired with themselves is alike itself.** -/
theorem refl {v : Value} (h : ∀ i ∈ v.closureIds, w.rel i i) : Alike w v v := by
  induction v with
  | unit => exact .unit
  | null => exact .null
  | bool b => exact .bool b
  | int n => exact .int n
  | str s => exact .str s
  | tuple items ih =>
      refine tuple_iff.mpr (List.forall₂_same.mpr fun v hv => ih v hv fun i hi => h i ?_)
      simp only [closureIds, closureIdsList_eq_flatMap, List.mem_flatMap]
      exact ⟨v, hv, hi⟩
  | list items ih =>
      refine list_iff.mpr (List.forall₂_same.mpr fun v hv => ih v hv fun i hi => h i ?_)
      simp only [closureIds, closureIdsList_eq_flatMap, List.mem_flatMap]
      exact ⟨v, hv, hi⟩
  | record name fields ih =>
      refine record_iff.mpr ⟨rfl, List.forall₂_same.mpr fun f hf =>
        ⟨rfl, ih f hf fun i hi => h i ?_⟩⟩
      simp only [closureIds, closureIdsFields_eq_flatMap, List.mem_flatMap]
      exact ⟨f, hf, hi⟩
  | closure id f captured ih =>
      have paired : w.rel id id := h id (by simp [closureIds])
      have reads : (Expr.lambda f.params f.body).ReadAlike w [] [] captured captured := by
        refine ⟨Bindings.nil_into _, Bindings.nil_into _, fun p _ => ?_⟩
        rw [Expr.subst_nil, Expr.read]
        cases hv : captured.lookup p.id with
        | none => rfl
        | some v =>
            have hmem : (p.id, v) ∈ captured := mem_of_lookup hv
            refine ih _ hmem fun i hi => h i ?_
            simp only [closureIds, closureIdsEnv_eq_flatMap, List.mem_cons, List.mem_flatMap]
            exact .inr ⟨_, hmem, hi⟩
      have same := ofReadAlike paired reads
      simpa [Bindings.without] using same

/-- A value that is there before both runs is alike itself. -/
theorem known {m n : Nat} {v : Value} (hm : v.Known m) (hn : v.Known n) :
    Alike (Pairing.known m n) v v :=
  refl fun i hi => ⟨rfl, hm i hi, hn i hi⟩

end Alike

end Value

end RowQuery
