import RowQuery.Proofs.Alike.Value
import RowQuery.Proofs.Registrations
import RowQuery.Proofs.Substitution.Scope

/-!
# Records and their members

A record is built by position and read by name.  Both agree in a schema of registered definitions,
since no definition has two fields of one name: the value that was given for a member is the one
that an access to the member evaluates to.

* `Schema.record_eq_ok_iff`, `Schema.record_eq_error_iff` — when a record is made, and why not.
* `Schema.memberAccess_of_mem`, `Schema.memberAccess_of_not_mem` — accesses to members, and to
  others.
* `Schema.Reads` — a value is a member of a record, by name and by access.
* `Schema.reads_record` — what was given for a member is read there.
* **`Schema.records_read_back`** — records and accesses after a history of registrations.
-/

namespace RowQuery

/-- An access to a field has its value, after the same closures were made. -/
theorem Expr.eval_member_of_field? {apply : Apply} {env : Env} {x : Expr} {r value : Value}
    {n k : Nat} (run : x.eval apply env n = .ok (r, k)) {name : String}
    (stored : r.field? name = some value) (ty : Ty) :
    (Expr.member x name ty).eval apply env n = .ok (value, k) := by
  have member := Value.member_of_field? stored
  rw [Expr.eval]
  refine bind_eq_ok_iff.2 ⟨(r, k), run, ?_⟩
  change (EvalM.lift (r.member name)) k = _
  rw [member]
  rfl

namespace Schema

variable {schema : Schema} {ty : Ty} {values : List Value} {fields : List FieldDef}

/-! ## Records -/

/-- **When a record is made**: the type has as many members as there are values. -/
theorem record_eq_ok_iff {r : Value} : schema.record ty values = .ok r ↔
    ∃ fields, schema.members ty = .ok fields ∧ fields.length = values.length ∧
      r = .record (ty.conName?.getD "") ((fields.map FieldDef.name).zip values) := by
  refine bind_eq_ok_iff.trans (exists_congr fun fields => and_congr_right fun _ => ?_)
  split
  case isTrue same => simp [same, pure, Except.pure, eq_comm]
  case isFalse other => simp [other, throw, throwThe, MonadExceptOf.throw]

/-- **Why a record is not made**: the type has no members, or more or fewer than there are values.
-/
theorem record_eq_error_iff {e : SchemaError} : schema.record ty values = .error e ↔
    schema.members ty = .error e ∨
      ∃ fields, schema.members ty = .ok fields ∧ fields.length ≠ values.length ∧
        e = .recordArity ty fields.length values.length := by
  refine bind_eq_error_iff.trans (or_congr_right (exists_congr fun fields =>
    and_congr_right fun _ => ?_))
  split
  case isTrue same => simp [same, pure, Except.pure]
  case isFalse other => simp [other, throw, throwThe, MonadExceptOf.throw, eq_comm]

/-- **By position and by name**: a value given for a field is found under the field's name. -/
theorem field?_record (apart : (fields.map FieldDef.name).Nodup)
    (same : fields.length = values.length) {field : FieldDef} {value : Value}
    (given : (field, value) ∈ fields.zip values) (name : String) :
    (Value.record name ((fields.map FieldDef.name).zip values)).field? field.name = some value := by
  refine lookup_of_mem (x := (field.name, value)) ?_ ?_
  · rwa [List.map_fst_zip (by simp [same])]
  · rw [List.zip_map_left]
    exact List.mem_map_of_mem given

/-! ## Accesses -/

/-- **An access to a member** is typed like the member. -/
theorem memberAccess_of_mem (apart : schema.FieldsApart) {x : Expr}
    (known : schema.members x.ty = .ok fields) {field : FieldDef} (member : field ∈ fields) :
    schema.memberAccess x field.name = .ok (.member x field.name field.ty) := by
  have first : fields.find? (fun other => other.name == field.name) = some field := by
    have distinct := apart.members known
    obtain ⟨before, after, rfl⟩ := List.append_of_mem member
    rw [List.map_append, List.map_cons, List.nodup_append] at distinct
    refine List.find?_eq_some_iff_append.2
      ⟨beq_self_eq_true _, before, after, rfl, fun other h => ?_⟩
    have different := distinct.2.2 other.name (List.mem_map_of_mem h) field.name List.mem_cons_self
    simpa using different
  refine bind_eq_ok_iff.2 ⟨fields, known, ?_⟩
  rw [first]
  rfl

/-- **An access to something else** is refused. -/
theorem memberAccess_of_not_mem {x : Expr} (known : schema.members x.ty = .ok fields)
    {name : String} (other : name ∉ fields.map FieldDef.name) :
    schema.memberAccess x name = .error (.noSuchMember x.ty name) := by
  have none : fields.find? (fun field => field.name == name) = none := by
    refine List.find?_eq_none.2 fun field member => ?_
    rw [beq_iff_eq]
    exact fun same => other (same ▸ List.mem_map_of_mem member)
  refine bind_eq_error_iff.2 (.inr ⟨fields, known, ?_⟩)
  rw [none]
  rfl

/-! ## Reading back -/

/-- **A value is a member of a record**: it stands under the member's name, and an access to the
member of an expression of the type has the member's type, and that value wherever the expression
has the record. -/
structure Reads (schema : Schema) (ty : Ty) (r : Value) (field : FieldDef) (value : Value) :
    Prop where
  stored : r.field? field.name = some value
  accessed : ∀ x : Expr, x.ty = ty → ∃ access, schema.memberAccess x field.name = .ok access ∧
    access.ty = field.ty ∧ ∀ (apply : Apply) (env : Env) (n k : Nat),
      x.eval apply env n = .ok (r, k) → access.eval apply env n = .ok (value, k)

/-- What was given for a member is read there. -/
theorem reads_record (apart : schema.FieldsApart) (known : schema.members ty = .ok fields)
    (same : fields.length = values.length) {field : FieldDef} {value : Value}
    (given : (field, value) ∈ fields.zip values) (name : String) :
    schema.Reads ty (.record name ((fields.map FieldDef.name).zip values)) field value := by
  have stored := field?_record (apart.members known) same given name
  refine ⟨stored, ?_⟩
  rintro x rfl
  exact ⟨_, memberAccess_of_mem apart known (List.of_mem_zip given).1, rfl,
    fun apply env n k run => Expr.eval_member_of_field? run stored field.ty⟩

/-- **Records and accesses agree.**  After any history of registrations: a record that is made has
the given values as its members, one by one; the members of a type are the fields of the definition
of its name, the type's arguments put in, and nothing else can be accessed; and a record is not made
exactly if the type has no members, for the reason it has none, or if it has more or fewer than
there are values. -/
theorem records_read_back (definitions : List StructDef) (ty : Ty) (values : List Value) :
    let schema := ((registerEach definitions).run {}).2
    (∀ r, schema.record ty values = .ok r → ∃ fields, schema.members ty = .ok fields ∧
      List.Forall₂ (schema.Reads ty r) fields values) ∧
    (∀ fields, schema.members ty = .ok fields →
      (∃ name found, ty.conName? = some name ∧ schema.find? name = some found ∧
        ty.args.length = found.generics.length ∧
        fields = found.fields.map fun field =>
          ⟨field.name, field.ty.instantiate (found.generics.zip ty.args)⟩) ∧
      ∀ x : Expr, x.ty = ty → ∀ name ∉ fields.map FieldDef.name,
        schema.memberAccess x name = .error (.noSuchMember ty name)) ∧
    (∀ e, schema.record ty values = .error e ↔ schema.members ty = .error e ∨
      ∃ fields, schema.members ty = .ok fields ∧ fields.length ≠ values.length ∧
        e = .recordArity ty fields.length values.length) := by
  intro schema
  have apart : schema.FieldsApart :=
    FieldsApart.registerEach (fun _ member => absurd member List.not_mem_nil) definitions
  refine ⟨?_, ?_, fun e => record_eq_error_iff⟩
  · intro r made
    obtain ⟨fields, known, same, rfl⟩ := record_eq_ok_iff.1 made
    exact ⟨fields, known, List.forall₂_iff_zip.2 ⟨same, fun given =>
      reads_record apart known same given _⟩⟩
  · intro fields known
    refine ⟨members_eq_ok_iff.1 known, ?_⟩
    rintro x rfl name other
    exact memberAccess_of_not_mem known other

/-- A pair whose second member may be absent, and a definition that is refused. -/
def optionalPairs : List StructDef :=
  [⟨"Pair", ["A", "B"], [⟨"first", .con "A"⟩, ⟨"second", .app (.con "Option") [.con "B"]⟩]⟩,
    twoFieldsOfOneName]

/-- A parameter for a pair of numbers, the second of which may be absent already. -/
def pairParam : Param := ⟨⟨0⟩, "p", .app (.con "Pair") [.int, .option .int]⟩

/-- The second member of a pair is what was given for it, under one option; there is no third one,
and no pair without values. -/
theorem records_read_back_pair :
    let schema := ((registerEach optionalPairs).run {}).2
    let pair := Value.record "Pair" [("first", .int 1), ("second", .int 2)]
    let second := Expr.member (.param pairParam) "second" (.option .int)
    schema.record pairParam.ty [.int 1, .int 2] = .ok pair ∧
    pair.field? "second" = some (.int 2) ∧
    schema.memberAccess (.param pairParam) "second" = .ok second ∧
    second.eval (Lambda.apply 0) [(pairParam.id, pair)] 0 = .ok (.int 2, 0) ∧
    schema.memberAccess (.param pairParam) "third" = .error (.noSuchMember pairParam.ty "third") ∧
    schema.record pairParam.ty [] = .error (.recordArity pairParam.ty 2 0) := by
  intro schema pair second
  obtain ⟨made, members, -⟩ := records_read_back optionalPairs pairParam.ty [.int 1, .int 2]
  obtain ⟨-, -, notMade⟩ := records_read_back optionalPairs pairParam.ty []
  obtain ⟨fields, known, reads⟩ := made pair rfl
  obtain rfl : fields = [⟨"first", .int⟩, ⟨"second", .option .int⟩] :=
    Except.ok.inj (known.symm.trans rfl)
  obtain _ | ⟨-, _ | ⟨⟨stored, accessed⟩, -⟩⟩ := reads
  obtain ⟨access, granted, -, evaluates⟩ := accessed (.param pairParam) rfl
  obtain rfl : access = second := Except.ok.inj (granted.symm.trans rfl)
  refine ⟨rfl, stored, granted, evaluates _ _ 0 0 rfl, ?_, ?_⟩
  · exact (members _ known).2 (.param pairParam) rfl "third" (by decide)
  · exact (notMade _).2 (.inr ⟨_, known, by decide, rfl⟩)

end Schema

end RowQuery
