import RowQuery.Proofs.Computations
import RowQuery.Schema.Basic

/-!
# Histories of registrations

Definitions come in one after the other, and some are refused: the name is taken, or a field is
declared twice.  A name keeps the definition that took it first, and a look-up that succeeded once
never changes.  A look-up that failed may succeed later, also one of a built-in type.

* `Schema.register`, `Schema.registerEach` — a definition registered in place; a history of them,
  with the outcome of each call.
* `Schema.define_eq_ok_iff` — what a definition does: the name was free, its fields have different
  names, and it is the last of the schema that comes about.
* `Schema.Extends` — what was found is found again.  It is enough that names keep their
  definitions (`Schema.Extends.of_find?`).
* `Schema.find?_registerEach` — a name has the definition it had, or else that of the first call
  of that name that was accepted.
* `Schema.members_eq_ok_iff`, `Schema.FieldsApart.members` — the members of a type, and that they
  are named apart.
* `Schema.registrations_from_empty` — the histories that start without definitions.
-/

namespace RowQuery.Schema

/-! ## Registration in place -/

/-- **A registration in place.**  The schema is replaced last, when nothing was refused. -/
def register (definition : StructDef) : ExceptT SchemaError (StateM Schema) Unit := do
  let extended ← MonadExcept.ofExcept ((← get).define definition)
  set extended

/-- A definition that was offered, and how the call ended. -/
abbrev Call := StructDef × Except SchemaError Unit

/-- **A history**: definitions registered one after the other.  A refusal ends its own call only. -/
def registerEach (definitions : List StructDef) : StateM Schema (List Call) :=
  definitions.mapM fun definition => return (definition, ← (register definition).run)

/-- The definition in the first accepted call of a name. -/
def firstAccepted? (calls : List Call) (name : String) : Option StructDef :=
  (calls.find? fun call => call.1.name == name && call.2.isOk).map (·.1)

variable {schema after : Schema} {definition : StructDef}

/-- **What a definition does.** -/
theorem define_eq_ok_iff : schema.define definition = .ok after ↔
    schema.find? definition.name = none ∧ (definition.fields.map FieldDef.name).Nodup ∧
      after = ⟨schema.structs ++ [definition]⟩ := by
  rw [← firstRepeat?_eq_none_iff, define, contains]
  cases schema.find? definition.name with
  | some taken => simp [throw, throwThe, MonadExceptOf.throw]
  | none =>
    cases firstRepeat? FieldDef.name definition.fields with
    | some field => simp [throw, throwThe, MonadExceptOf.throw]
    | none => simp [pure, Except.pure, eq_comm]

/-- A name has the definition it had, or else the new one if that is its name. -/
theorem find?_define (h : schema.define definition = .ok after) (name : String) :
    after.find? name =
      (schema.find? name).or (if definition.name == name then some definition else none) := by
  obtain ⟨-, -, rfl⟩ := define_eq_ok_iff.1 h
  simp [find?, List.find?_append, List.find?_cons]
  grind

/-- A definition that was made is found. -/
theorem find?_define_self (h : schema.define definition = .ok after) :
    after.find? definition.name = some definition := by
  rw [find?_define h, (define_eq_ok_iff.1 h).1]
  simp

/-- What was found before a definition is found after it. -/
theorem find?_define_of_find? (h : schema.define definition = .ok after) {name : String}
    {found : StructDef} (hfound : schema.find? name = some found) :
    after.find? name = some found := by
  rw [find?_define h, hfound, Option.some_or]

/-- **A call**: the definition is made, or it is refused and nothing has changed. -/
theorem register_run : (register definition).run.run schema =
    match schema.define definition with
    | .ok extended => (.ok (), extended)
    | .error refusal => (.error refusal, schema) := by
  change (ExceptT.run (m := StateM Schema) (MonadExcept.ofExcept (schema.define definition) >>=
    fun extended => set extended)).run schema = _
  cases schema.define definition <;> rfl

@[simp]
theorem registerEach_nil : (registerEach []).run schema = ([], schema) := rfl

/-- A history is its first call, and then the others on the schema that one leaves behind. -/
theorem registerEach_cons (definitions : List StructDef) :
    (registerEach (definition :: definitions)).run schema =
      let call := (register definition).run.run schema
      let rest := (registerEach definitions).run call.2
      ((definition, call.1) :: rest.1, rest.2) := by
  simp only [registerEach, List.mapM_cons]
  rfl

/-- All calls are on record. -/
theorem map_fst_registerEach (definitions : List StructDef) :
    ((registerEach definitions).run schema).1.map (·.1) = definitions := by
  induction definitions generalizing schema with
  | nil => rfl
  | cons definition definitions ih => simp only [registerEach_cons, List.map_cons, ih]

/-! ## The definition of a name -/

theorem firstAccepted?_cons (call : Call) (calls : List Call) (name : String) :
    firstAccepted? (call :: calls) name =
      (firstAccepted? [call] name).or (firstAccepted? calls name) := by
  simp only [firstAccepted?, List.find?_cons]
  cases call.1.name == name && call.2.isOk <;> rfl

/-- One call: the name keeps its definition, or has the one that was accepted for it. -/
theorem find?_register (name : String) :
    ((register definition).run.run schema).2.find? name = (schema.find? name).or
      (firstAccepted? [(definition, ((register definition).run.run schema).1)] name) := by
  rw [register_run]
  cases made : schema.define definition with
  | error refusal => simp [firstAccepted?, Except.isOk, Except.toBool]
  | ok extended =>
    rw [find?_define made]
    cases hname : definition.name == name <;>
      simp [firstAccepted?, hname, Except.isOk, Except.toBool]

/-- **A history**: the name has the definition it had, or else the first one accepted for it.  By
induction on the calls that are left, from any schema on. -/
theorem find?_registerEach (definitions : List StructDef) (name : String) :
    ((registerEach definitions).run schema).2.find? name = (schema.find? name).or
      (firstAccepted? ((registerEach definitions).run schema).1 name) := by
  induction definitions generalizing schema with
  | nil => simp [firstAccepted?]
  | cons definition definitions ih =>
    simp only [registerEach_cons]
    rw [firstAccepted?_cons, ih, find?_register, Option.or_assoc]

/-! ## The fields of a definition -/

/-- Every definition names its fields apart. -/
def FieldsApart (schema : Schema) : Prop :=
  ∀ definition ∈ schema.structs, (definition.fields.map FieldDef.name).Nodup

/-- A call keeps the fields apart. -/
theorem FieldsApart.register (apart : schema.FieldsApart) (definition : StructDef) :
    ((register definition).run.run schema).2.FieldsApart := by
  rw [register_run]
  cases made : schema.define definition with
  | error refusal => exact apart
  | ok extended =>
    obtain ⟨-, fields, rfl⟩ := define_eq_ok_iff.1 made
    intro found member
    rcases List.mem_append.1 member with old | new
    · exact apart found old
    · rwa [List.mem_singleton.1 new]

/-- A history keeps the fields apart. -/
theorem FieldsApart.registerEach (apart : schema.FieldsApart) (definitions : List StructDef) :
    ((registerEach definitions).run schema).2.FieldsApart := by
  induction definitions generalizing schema with
  | nil => exact apart
  | cons definition definitions ih =>
    rw [registerEach_cons]
    exact ih (apart.register definition)

/-- What is found names its fields apart. -/
theorem FieldsApart.nodup (apart : schema.FieldsApart) {name : String} {found : StructDef}
    (h : schema.find? name = some found) : (found.fields.map FieldDef.name).Nodup :=
  apart found (List.mem_of_find?_eq_some h)

/-- **The members of a type**: the fields of the definition of its name, if the type has as many
arguments as that has parameters, with the arguments put in. -/
theorem members_eq_ok_iff {ty : Ty} {fields : List FieldDef} :
    schema.members ty = .ok fields ↔ ∃ name found, ty.conName? = some name ∧
      schema.find? name = some found ∧ ty.args.length = found.generics.length ∧
      fields = found.fields.map fun field =>
        ⟨field.name, field.ty.instantiate (found.generics.zip ty.args)⟩ := by
  constructor
  · intro h
    unfold members at h
    split at h
    · cases h
    case h_2 name head =>
      split at h
      · cases h
      case h_2 found hfound =>
        split at h
        case isTrue arity =>
          cases h
          exact ⟨name, found, head, hfound, arity, rfl⟩
        · cases h
  · rintro ⟨name, found, head, hfound, arity, rfl⟩
    simp only [members, head, hfound, if_pos arity]
    rfl

/-- The members of a type are the fields of the definition of its name, in their order. -/
theorem names_of_members_eq_ok {ty : Ty} {fields : List FieldDef}
    (h : schema.members ty = .ok fields) :
    ∃ name found, ty.conName? = some name ∧ schema.find? name = some found ∧
      fields.map FieldDef.name = found.fields.map FieldDef.name := by
  obtain ⟨name, found, head, hfound, -, rfl⟩ := members_eq_ok_iff.1 h
  exact ⟨name, found, head, hfound, by simp [Function.comp_def]⟩

/-- **Members of a type are named apart** in a schema of registered definitions. -/
theorem FieldsApart.members (apart : schema.FieldsApart) {ty : Ty} {members : List FieldDef}
    (h : schema.members ty = .ok members) : (members.map FieldDef.name).Nodup := by
  obtain ⟨_, found, -, hfound, same⟩ := names_of_members_eq_ok h
  rw [same]
  exact apart.nodup hfound

/-! ## Look-ups that succeeded -/

/-- **What was found is found again**, whatever was looked for. -/
structure Extends (schema after : Schema) : Prop where
  find? : ∀ name found, schema.find? name = some found → after.find? name = some found
  members : ∀ ty fields, schema.members ty = .ok fields → after.members ty = .ok fields
  memberAccess : ∀ object member access,
    schema.memberAccess object member = .ok access → after.memberAccess object member = .ok access
  record : ∀ ty values value,
    schema.record ty values = .ok value → after.record ty values = .ok value

/-- All look-ups go through the definition of a name, and through nothing else once there is
one. -/
theorem Extends.of_find?
    (keeps : ∀ name found, schema.find? name = some found → after.find? name = some found) :
    schema.Extends after := by
  have members : ∀ ty fields, schema.members ty = .ok fields → after.members ty = .ok fields := by
    intro ty fields h
    obtain ⟨name, found, head, hfound, rest⟩ := members_eq_ok_iff.1 h
    exact members_eq_ok_iff.2 ⟨name, found, head, keeps name found hfound, rest⟩
  refine ⟨keeps, members, ?_, ?_⟩
  · intro object member access h
    obtain ⟨fields, hfields, h⟩ := bind_eq_ok_iff.1 h
    exact bind_eq_ok_iff.2 ⟨fields, members _ _ hfields, h⟩
  · intro ty values value h
    obtain ⟨fields, hfields, h⟩ := bind_eq_ok_iff.1 h
    exact bind_eq_ok_iff.2 ⟨fields, members _ _ hfields, h⟩

/-- A history leaves what was found as it was. -/
theorem extends_registerEach (schema : Schema) (definitions : List StructDef) :
    schema.Extends ((registerEach definitions).run schema).2 :=
  .of_find? fun name found h => by rw [find?_registerEach, h, Option.some_or]

/-! ## Histories that start without definitions -/

/-- **Histories of registrations.**  After any sequence of calls that starts without definitions:
a name has exactly the definition of the first call of that name that was accepted; its fields
have different names, and members are listed in the order of their declaration; a call that is
refused leaves the schema as it is; and what was looked up with success stays, whatever is
registered later. -/
theorem registrations_from_empty (definitions : List StructDef) :
    let history := (registerEach definitions).run {}
    history.1.map (·.1) = definitions ∧
    (∀ name, history.2.find? name = firstAccepted? history.1 name) ∧
    (∀ name found, history.2.find? name = some found →
      (found.fields.map FieldDef.name).Nodup) ∧
    (∀ ty fields, history.2.members ty = .ok fields → ∃ name found,
      ty.conName? = some name ∧ firstAccepted? history.1 name = some found ∧
        fields.map FieldDef.name = found.fields.map FieldDef.name) ∧
    (∀ definition refusal after,
      (register definition).run.run history.2 = (.error refusal, after) → after = history.2) ∧
    (∀ later, history.2.Extends ((registerEach later).run history.2).2) := by
  intro history
  have names : ∀ name, history.2.find? name = firstAccepted? history.1 name := by
    intro name
    rw [find?_registerEach]
    rfl
  have apart : history.2.FieldsApart :=
    FieldsApart.registerEach (fun _ member => absurd member List.not_mem_nil) definitions
  refine ⟨map_fst_registerEach definitions, names, fun name found => apart.nodup, ?_, ?_,
    extends_registerEach _⟩
  · intro ty fields h
    obtain ⟨name, found, head, hfound, same⟩ := names_of_members_eq_ok h
    exact ⟨name, found, head, names name ▸ hfound, same⟩
  · intro definition refusal after call
    rw [register_run] at call
    split at call <;> cases call
    rfl

/-- Two fields of one name. -/
def twoFieldsOfOneName : StructDef := ⟨"Twin", [], [⟨"x", .int⟩, ⟨"x", .bool⟩]⟩

/-- A point, and another definition of the same name. -/
def pointThenAnother : List StructDef :=
  [⟨"Point", [], [⟨"y", .int⟩, ⟨"x", .int⟩]⟩, ⟨"Point", [], [⟨"x", .bool⟩]⟩]

/-- The first point counts; two fields of one name are refused after it; and the members of a
point stay when `Int` is defined. -/
theorem registrations_of_points :
    let history := (registerEach pointThenAnother).run {}
    history.2.find? "Point" = some ⟨"Point", [], [⟨"y", .int⟩, ⟨"x", .int⟩]⟩ ∧
    ((register twoFieldsOfOneName).run.run history.2).2 = history.2 ∧
    ((registerEach [⟨"Int", [], []⟩]).run history.2).2.members (.con "Point") =
      .ok [⟨"y", .int⟩, ⟨"x", .int⟩] := by
  obtain ⟨-, names, -, -, refused, later⟩ := registrations_from_empty pointThenAnother
  exact ⟨(names "Point").trans rfl,
    refused twoFieldsOfOneName (.duplicateField "Twin" "x") _ rfl, (later _).members _ _ rfl⟩

end RowQuery.Schema
