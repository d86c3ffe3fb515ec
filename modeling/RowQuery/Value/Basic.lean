import RowQuery.Expr.Basic

/-!
# Values

* `Value` — what expressions evaluate to: data, and closures.
* `Env` — values bound to parameter ids; the first binding of an id counts.
* `Value.same`, the `==` of values — data is compared member by member, closures by identity: two
  closures are the same only if one evaluation made both.  It is an equivalence (`EquivBEq Value`).

`Value.induct` is induction on values with a hypothesis for every member.
-/

namespace RowQuery

/-- **Values.** -/
inductive Value where
  | unit
  /-- The absent value. -/
  | null
  | bool (b : Bool)
  | int (n : Int64)
  | str (s : String)
  | tuple (items : List Value)
  | list (items : List Value)
  /-- A struct value: the struct's name and the fields in their order. -/
  | record (name : String) (fields : List (String × Value))
  /-- A function together with what it captured.  The number tells one evaluation of a function
  expression from another. -/
  | closure (id : Nat) (f : Lambda) (captured : List (ParamId × Value))
  deriving Inhabited, Repr

/-- **Environments**: values bound to parameter ids. -/
abbrev Env := List (ParamId × Value)

namespace Value

/-- **Induction on values**, with a hypothesis for each member, field and captured value. -/
@[induction_eliminator]
theorem induct {motive : Value → Prop}
    (unit : motive .unit)
    (null : motive .null)
    (bool : ∀ b, motive (.bool b))
    (int : ∀ n, motive (.int n))
    (str : ∀ s, motive (.str s))
    (tuple : ∀ items, (∀ v ∈ items, motive v) → motive (.tuple items))
    (list : ∀ items, (∀ v ∈ items, motive v) → motive (.list items))
    (record : ∀ name fields, (∀ f ∈ fields, motive f.2) → motive (.record name fields))
    (closure : ∀ id f captured, (∀ c ∈ captured, motive c.2) →
      motive (.closure id f captured)) : ∀ v, motive v :=
  @Value.rec motive (fun vs => ∀ v ∈ vs, motive v) (fun fs => ∀ f ∈ fs, motive f.2)
    (fun cs => ∀ c ∈ cs, motive c.2) (fun f => motive f.2) (fun c => motive c.2)
    unit null bool int str tuple list record closure
    (fun _ h => nomatch h)
    (fun _ _ head tail v h => by
      cases h with
      | head => exact head
      | tail _ h => exact tail v h)
    (fun _ h => nomatch h)
    (fun _ _ head tail f h => by
      cases h with
      | head => exact head
      | tail _ h => exact tail f h)
    (fun _ h => nomatch h)
    (fun _ _ head tail c h => by
      cases h with
      | head => exact head
      | tail _ h => exact tail c h)
    (fun _ _ value => value)
    (fun _ _ value => value)

/-- The value of a constant. -/
def ofLiteral : Literal → Value
  | .unit => .unit
  | .null => .null
  | .bool b => .bool b
  | .int n => .int n
  | .str s => .str s

/-- Whether a value is the absent one. -/
def isNull : Value → Bool
  | .null => true
  | _ => false

/-- The value of a field; only records have fields. -/
def field? (name : String) : Value → Option Value
  | .record _ fields => fields.lookup name
  | _ => none

/-! ## Equality -/

mutual

/-- **Equality of values.**  Tuples and lists differ even with the same members; records agree in
name and in their fields, in order; closures are equal if they are the same one. -/
def same : Value → Value → Bool
  | .unit, .unit => true
  | .null, .null => true
  | .bool a, .bool b => a == b
  | .int a, .int b => a == b
  | .str a, .str b => a == b
  | .tuple as, .tuple bs => sameList as bs
  | .list as, .list bs => sameList as bs
  | .record m as, .record n bs => m == n && sameFields as bs
  | .closure i _ _, .closure j _ _ => i == j
  | _, _ => false

/-- `Value.same`, member by member. -/
def sameList : List Value → List Value → Bool
  | [], [] => true
  | a :: as, b :: bs => a.same b && sameList as bs
  | _, _ => false

/-- `Value.same`, field by field, names included. -/
def sameFields : List (String × Value) → List (String × Value) → Bool
  | [], [] => true
  | (m, a) :: as, (n, b) :: bs => m == n && a.same b && sameFields as bs
  | _, _ => false

end

instance : BEq Value := ⟨same⟩

/-- The `==` of values is `Value.same`. -/
theorem beq_eq_same (a b : Value) : (a == b) = a.same b := rfl

mutual

/-- Every value equals itself. -/
theorem same_self : ∀ v : Value, v.same v = true
  | .unit => by simp [same]
  | .null => by simp [same]
  | .bool _ => by simp [same]
  | .int _ => by simp [same]
  | .str _ => by simp [same]
  | .tuple items => by simp [same, sameList_self items]
  | .list items => by simp [same, sameList_self items]
  | .record _ fields => by simp [same, sameFields_self fields]
  | .closure .. => by simp [same]

/-- Every list of values equals itself. -/
theorem sameList_self : ∀ vs : List Value, sameList vs vs = true
  | [] => by simp [sameList]
  | v :: vs => by simp [sameList, same_self v, sameList_self vs]

/-- Every list of fields equals itself. -/
theorem sameFields_self : ∀ fs : List (String × Value), sameFields fs fs = true
  | [] => by simp [sameFields]
  | (_, v) :: fs => by simp [sameFields, same_self v, sameFields_self fs]

end

mutual

/-- Equality of values holds both ways. -/
theorem same_comm : ∀ a b : Value, a.same b = b.same a
  | .unit, b => by cases b <;> simp [same]
  | .null, b => by cases b <;> simp [same]
  | .bool _, b => by cases b <;> simp [same, Bool.beq_comm]
  | .int _, b => by cases b <;> simp [same, BEq.comm]
  | .str _, b => by cases b <;> simp [same, BEq.comm]
  | .tuple as, b => by
      cases b with
      | tuple bs => rw [same, same, sameList_comm as bs]
      | _ => simp [same]
  | .list as, b => by
      cases b with
      | list bs => rw [same, same, sameList_comm as bs]
      | _ => simp [same]
  | .record m as, b => by
      cases b with
      | record n bs => rw [same, same, sameFields_comm as bs, BEq.comm]
      | _ => simp [same]
  | .closure i _ _, b => by cases b <;> simp [same, BEq.comm]

/-- Equality of lists of values holds both ways. -/
theorem sameList_comm : ∀ as bs : List Value, sameList as bs = sameList bs as
  | [], bs => by cases bs <;> simp [sameList]
  | a :: as, bs => by
      cases bs with
      | nil => simp [sameList]
      | cons b bs => rw [sameList, sameList, same_comm a b, sameList_comm as bs]

/-- Equality of fields holds both ways. -/
theorem sameFields_comm : ∀ as bs : List (String × Value), sameFields as bs = sameFields bs as
  | [], bs => by cases bs <;> simp [sameFields]
  | (m, a) :: as, bs => by
      cases bs with
      | nil => simp [sameFields]
      | cons b bs =>
          obtain ⟨n, b⟩ := b
          rw [sameFields, sameFields, same_comm a b, sameFields_comm as bs,
            BEq.comm (a := m) (b := n)]

end

mutual

/-- Values that equal one value equal each other. -/
theorem same_trans : ∀ {a b c : Value}, a.same b = true → b.same c = true → a.same c = true
  | .unit, b, c, hab, hbc => by
      cases b with
      | unit => exact hbc
      | _ => simp [same] at hab
  | .null, b, c, hab, hbc => by
      cases b with
      | null => exact hbc
      | _ => simp [same] at hab
  | .bool _, b, c, hab, hbc => by cases b <;> cases c <;> simp_all [same]
  | .int _, b, c, hab, hbc => by cases b <;> cases c <;> simp_all [same]
  | .str _, b, c, hab, hbc => by cases b <;> cases c <;> simp_all [same]
  | .tuple as, b, c, hab, hbc => by
      cases b with
      | tuple bs =>
          cases c with
          | tuple cs => exact sameList_trans hab hbc
          | _ => simp [same] at hbc
      | _ => simp [same] at hab
  | .list as, b, c, hab, hbc => by
      cases b with
      | list bs =>
          cases c with
          | list cs => exact sameList_trans hab hbc
          | _ => simp [same] at hbc
      | _ => simp [same] at hab
  | .record m as, b, c, hab, hbc => by
      cases b with
      | record n bs =>
          cases c with
          | record o cs =>
              simp only [same, Bool.and_eq_true, beq_iff_eq] at hab hbc ⊢
              exact ⟨hab.1.trans hbc.1, sameFields_trans hab.2 hbc.2⟩
          | _ => simp [same] at hbc
      | _ => simp [same] at hab
  | .closure .., b, c, hab, hbc => by cases b <;> cases c <;> simp_all [same]

/-- Lists of values that equal one list equal each other. -/
theorem sameList_trans : ∀ {as bs cs : List Value},
    sameList as bs = true → sameList bs cs = true → sameList as cs = true
  | [], bs, cs, hab, hbc => by cases bs <;> simp_all [sameList]
  | a :: as, bs, cs, hab, hbc => by
      cases bs with
      | nil => simp [sameList] at hab
      | cons b bs =>
          cases cs with
          | nil => simp [sameList] at hbc
          | cons c cs =>
              simp only [sameList, Bool.and_eq_true] at hab hbc ⊢
              exact ⟨same_trans hab.1 hbc.1, sameList_trans hab.2 hbc.2⟩

/-- Fields that equal the same fields equal each other. -/
theorem sameFields_trans : ∀ {as bs cs : List (String × Value)},
    sameFields as bs = true → sameFields bs cs = true → sameFields as cs = true
  | [], bs, cs, hab, hbc => by cases bs <;> simp_all [sameFields]
  | (m, a) :: as, bs, cs, hab, hbc => by
      cases bs with
      | nil => simp [sameFields] at hab
      | cons b bs =>
          cases cs with
          | nil => simp [sameFields] at hbc
          | cons c cs =>
              obtain ⟨n, b⟩ := b
              obtain ⟨o, c⟩ := c
              simp only [sameFields, Bool.and_eq_true, beq_iff_eq] at hab hbc ⊢
              exact ⟨⟨hab.1.1.trans hbc.1.1, same_trans hab.1.2 hbc.1.2⟩,
                sameFields_trans hab.2 hbc.2⟩

end

/-- **Equality of values is an equivalence.** -/
instance : EquivBEq Value where
  rfl := same_self _
  symm {a b} h := by rw [beq_eq_same, same_comm]; exact h
  trans h₁ h₂ := same_trans h₁ h₂

end Value

end RowQuery
