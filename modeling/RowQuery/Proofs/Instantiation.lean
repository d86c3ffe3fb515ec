import RowQuery.Proofs.Substitution.Scope
import RowQuery.Ty.Instantiate

/-!
# Instantiation as substitution

Instantiation puts types where names stand and builds the applications around them anew, with
options kept flat on the way.  It is a substitution all the same: instantiating twice is
instantiating once, with the arguments of the first time instantiated.

* `Ty.subterms`, `Ty.OptionFlat` — types in which no option is the argument of an option.
* `Ty.applied_cases` — how an application is built.
* `Ty.OptionFlat.instantiate` — only arguments can bring in nested options.
* `Ty.instantiate_option`, `Ty.instantiate_applied` — building and instantiating in either order.
* `Ty.instantiate_instantiate` — instantiating twice.
* **`Ty.instantiate_substitutes`** — both, for parameters and arguments in two lists.
-/

namespace RowQuery.Ty

/-! ## Flat options -/

mutual

/-- **The subterms of a type**: the type and all types inside it, heads of applications included. -/
def subterms : Ty → List Ty
  | .con name => [.con name]
  | .app head args => .app head args :: (head.subterms ++ subtermsList args)
  | .tuple items => .tuple items :: subtermsList items
  | .fn params result => .fn params result :: (subtermsList params ++ result.subterms)
  | .never => [.never]

/-- The subterms of the types of a list. -/
def subtermsList : List Ty → List Ty
  | [] => []
  | t :: ts => t.subterms ++ subtermsList ts

end

@[simp]
theorem subtermsList_eq_flatMap (ts : List Ty) : subtermsList ts = ts.flatMap subterms := by
  induction ts with
  | nil => rfl
  | cons t ts ih => simp [subtermsList, ih]

/-- **Flat options**: no subterm is an option whose argument is an option. -/
def OptionFlat (t : Ty) : Prop :=
  ∀ s ∈ t.subterms, s.isOption → ∀ inner ∈ s.args, inner.isOption = false

instance (t : Ty) : Decidable t.OptionFlat :=
  inferInstanceAs <| Decidable <|
    ∀ s ∈ t.subterms, s.isOption → ∀ inner ∈ s.args, inner.isOption = false

theorem optionFlat_app {head : Ty} {args : List Ty} :
    (app head args).OptionFlat ↔
      ((app head args).isOption → ∀ inner ∈ args, inner.isOption = false) ∧
        head.OptionFlat ∧ ∀ t ∈ args, t.OptionFlat := by
  simp only [OptionFlat, subterms, subtermsList_eq_flatMap, List.forall_mem_cons,
    List.forall_mem_append, List.forall_mem_flatMap]
  rfl

theorem optionFlat_tuple {items : List Ty} :
    (tuple items).OptionFlat ↔ ∀ t ∈ items, t.OptionFlat := by
  simp only [OptionFlat, subterms, subtermsList_eq_flatMap, List.forall_mem_cons,
    List.forall_mem_flatMap]
  simp [isOption, conName?]

theorem optionFlat_fn {params : List Ty} {result : Ty} :
    (fn params result).OptionFlat ↔ (∀ t ∈ params, t.OptionFlat) ∧ result.OptionFlat := by
  simp only [OptionFlat, subterms, subtermsList_eq_flatMap, List.forall_mem_cons,
    List.forall_mem_append, List.forall_mem_flatMap]
  simp [isOption, conName?]

/-! ## Applications -/

/-- An option is an application to one argument. -/
theorem exists_of_isOption {t : Ty} (h : t.isOption) :
    ∃ head inner, t = app head [inner] ∧ head.conName? = some "Option" := by
  cases t with
  | app head args =>
      rw [isOption, Bool.and_eq_true, beq_iff_eq, beq_iff_eq] at h
      obtain ⟨inner, rfl⟩ := List.length_eq_one_iff.mp h.2
      exact ⟨head, inner, rfl, h.1⟩
  | _ => simp [isOption, args, conName?] at h

/-- The option of a type is read as an option. -/
theorem conName?_option (t : Ty) : t.option.conName? = some "Option" := by
  have h := isOption_option t
  rw [isOption, Bool.and_eq_true, beq_iff_eq] at h
  exact h.1

/-- An option is built for one argument. -/
theorem applied_of_option {head : Ty} (h : head.conName? = some "Option") (inner : Ty) :
    applied head [inner] = inner.option := by
  simp only [applied, h, beq_self_eq_true]

/-- **How an application is built**: an option of the one argument, or else as it stands, and then
it is no option. -/
theorem applied_cases (head : Ty) (args : List Ty) :
    (∃ inner, args = [inner] ∧ head.conName? = some "Option" ∧ applied head args = inner.option) ∨
      (app head args).isOption = false ∧ applied head args = app head args := by
  by_cases h : (app head args).isOption
  · obtain ⟨_, inner, ⟨⟩, name⟩ := exists_of_isOption h
    exact .inl ⟨inner, rfl, name, applied_of_option name inner⟩
  · refine .inr ⟨Bool.eq_false_iff.mpr h, ?_⟩
    unfold applied
    split
    · rename_i name
      exact absurd (by simp [isOption, conName?, Ty.args, beq_iff_eq.mp name]) h
    · rfl

/-! ## Putting in flat types -/

/-- The option of a type is flat if the type is. -/
theorem OptionFlat.option {t : Ty} (flat : t.OptionFlat) : t.option.OptionFlat := by
  unfold Ty.option
  split
  · exact flat
  · refine optionFlat_app.mpr ⟨fun _ => ?_, ?_, ?_⟩
    · simp_all
    · simp [OptionFlat, subterms, args]
    · simpa using flat

/-- An application is flat if its parts are. -/
theorem OptionFlat.applied {head : Ty} {args : List Ty} (flat : head.OptionFlat)
    (flats : ∀ t ∈ args, t.OptionFlat) : (applied head args).OptionFlat := by
  rcases applied_cases head args with ⟨inner, rfl, -, built⟩ | ⟨plain, built⟩
  · rw [built]
    exact (flats inner List.mem_cons_self).option
  · rw [built]
    refine optionFlat_app.mpr ⟨fun option => ?_, flat, flats⟩
    rw [plain] at option
    cases option

/-- **Only arguments bring in nested options**: a type with flat ones put into it is flat, whether
it was flat or not. -/
theorem OptionFlat.instantiate {table : List (String × Ty)}
    (flat : ∀ name arg, table.lookup name = some arg → arg.OptionFlat) (t : Ty) :
    (t.instantiate table).OptionFlat := by
  induction t with
  | con name =>
      rw [Ty.instantiate]
      cases found : table.lookup name with
      | none => simp [OptionFlat, subterms, args]
      | some arg => exact flat name arg found
  | app head args ihHead ihArgs =>
      rw [Ty.instantiate, instantiateList_eq_map]
      exact ihHead.applied (List.forall_mem_map.mpr ihArgs)
  | tuple items ih =>
      rw [Ty.instantiate, instantiateList_eq_map]
      exact optionFlat_tuple.mpr (List.forall_mem_map.mpr ih)
  | fn params result ihParams ihResult =>
      rw [Ty.instantiate, instantiateList_eq_map]
      exact optionFlat_fn.mpr ⟨List.forall_mem_map.mpr ihParams, ihResult⟩
  | never => simp [Ty.instantiate, OptionFlat, subterms, args]

/-! ## Instantiating twice -/

section

variable {table : List (String × Ty)} (plain : table.lookup "Option" = none)

include plain

/-- What is headed by `Option` stays so. -/
theorem conName?_instantiate {t : Ty} (h : t.conName? = some "Option") :
    (t.instantiate table).conName? = some "Option" := by
  induction t with
  | con name =>
      obtain rfl := Option.some.inj h
      rw [instantiate, plain]
      rfl
  | app head args ihHead ihArgs =>
      rw [instantiate, instantiateList_eq_map]
      rcases applied_cases (head.instantiate table) (args.map (instantiate table)) with
        ⟨inner, -, -, built⟩ | ⟨-, built⟩
      · rw [built, conName?_option]
      · rw [built]
        exact ihHead h
  | _ => cases h

/-- **Options and instantiation** in either order. -/
theorem instantiate_option (t : Ty) :
    t.option.instantiate table = (t.instantiate table).option := by
  have wrapped : ∀ head inner : Ty, head.conName? = some "Option" →
      (app head [inner]).instantiate table = (inner.instantiate table).option := by
    intro head inner h
    rw [instantiate, instantiateList_eq_map, List.map_singleton,
      applied_of_option (conName?_instantiate plain h)]
  by_cases h : t.isOption
  · -- an option is left as it is, and what comes of it is one again
    obtain ⟨head, inner, rfl, name⟩ := exists_of_isOption h
    rw [Ty.option, if_pos h, wrapped head inner name, option_option]
  · rw [Ty.option, if_neg h, wrapped _ _ rfl]

/-- **Building an application and instantiating** in either order. -/
theorem instantiate_applied (head : Ty) (args : List Ty) :
    (applied head args).instantiate table =
      applied (head.instantiate table) (args.map (instantiate table)) := by
  rcases applied_cases head args with ⟨inner, rfl, name, built⟩ | ⟨-, built⟩
  · rw [built, instantiate_option plain, List.map_singleton,
      applied_of_option (conName?_instantiate plain name)]
  · rw [built, instantiate, instantiateList_eq_map]

/-- **Instantiating twice is instantiating once**, if the names that are replaced the second time
are replaced the first time. -/
theorem instantiate_instantiate {first : List (String × Ty)} {t : Ty}
    (covered : ∀ name ∈ t.names, first.lookup name = none → table.lookup name = none) :
    (t.instantiate first).instantiate table =
      t.instantiate (first.map fun x => (x.1, x.2.instantiate table)) := by
  induction t with
  | con name =>
      rw [instantiate, instantiate, lookup_map]
      cases found : first.lookup name with
      | none =>
          rw [Option.getD_none, instantiate, covered name (List.mem_singleton.mpr rfl) found]
          rfl
      | some arg => rfl
  | app head args ihHead ihArgs =>
      simp only [names, namesList_eq_flatMap, List.forall_mem_append, List.forall_mem_flatMap]
        at covered
      have members := List.map_congr_left fun t ht => ihArgs t ht (covered.2 t ht)
      simp only [instantiate, instantiateList_eq_map, List.map_map, Function.comp_def,
        instantiate_applied plain]
      rw [ihHead covered.1, members]
  | tuple items ih =>
      simp only [names, namesList_eq_flatMap, List.forall_mem_flatMap] at covered
      have members := List.map_congr_left fun t ht => ih t ht (covered t ht)
      simp only [instantiate, instantiateList_eq_map, List.map_map, Function.comp_def]
      rw [members]
  | fn params result ihParams ihResult =>
      simp only [names, namesList_eq_flatMap, List.forall_mem_append, List.forall_mem_flatMap]
        at covered
      have members := List.map_congr_left fun t ht => ihParams t ht (covered.1 t ht)
      simp only [instantiate, instantiateList_eq_map, List.map_map, Function.comp_def]
      rw [members, ihResult covered.2]
  | never => rfl

end

/-! ## Parameters and arguments in two lists -/

/-- As many arguments as parameters can be put in. -/
theorem instantiate?_of_length {params : List String} {args : List Ty}
    (h : params.length = args.length) (t : Ty) :
    t.instantiate? params args = some (t.instantiate (params.zip args)) :=
  if_pos (covers_of_length h t)

/-- A name has no argument exactly if it is no parameter. -/
theorem lookup_zip_eq_none_iff {params : List String} {args : List Ty}
    (h : params.length = args.length) {name : String} :
    (params.zip args).lookup name = none ↔ name ∉ params := by
  have bound : name ∈ params ↔ ∃ x ∈ params.zip args, x.1 = name := by
    rw [← List.mem_map, List.map_fst_zip (Nat.le_of_eq h)]
  simp only [List.lookup_eq_none_iff, bound, bne_iff_ne, not_exists, not_and]
  exact forall₂_congr fun _ _ => ne_comm

/-- **Instantiation is a substitution that keeps options flat.**  With as many arguments as
parameters it has an answer, and that has flat options if the arguments do.  Instantiating an answer
again is instantiating once, with the arguments instantiated again, if every name that is replaced
again in the type is a parameter already and `Option` is not replaced again. -/
theorem instantiate_substitutes (t : Ty) :
    (∀ (params : List String) (args : List Ty), params.length = args.length →
      (∀ arg ∈ args, arg.OptionFlat) →
      ∃ u, t.instantiate? params args = some u ∧ u.OptionFlat) ∧
    ∀ (params again : List String) (args argsAgain : List Ty), params.length = args.length →
      again.length = argsAgain.length → (∀ name ∈ again, name ∈ t.names → name ∈ params) →
      "Option" ∉ again →
      ∃ args' u, args.mapM (instantiate? again argsAgain) = some args' ∧
        t.instantiate? params args' = some u ∧
        (t.instantiate? params args).bind (instantiate? again argsAgain) = some u := by
  constructor
  · intro params args h flat
    refine ⟨_, instantiate?_of_length h t, OptionFlat.instantiate (fun name arg found => ?_) t⟩
    exact flat arg (List.of_mem_zip (mem_of_lookup found)).2
  · intro params again args argsAgain h hAgain covered plain
    have replacedBefore : ∀ name ∈ t.names, (params.zip args).lookup name = none →
        (again.zip argsAgain).lookup name = none := by
      intro name used unbound
      rw [lookup_zip_eq_none_iff h] at unbound
      exact (lookup_zip_eq_none_iff hAgain).mpr fun replaced =>
        unbound (covered name replaced used)
    have once := instantiate_instantiate ((lookup_zip_eq_none_iff hAgain).mpr plain) replacedBefore
    refine ⟨args.map (instantiate (again.zip argsAgain)), _, ?_,
      instantiate?_of_length (by rw [List.length_map, h]) t, ?_⟩
    · have each : instantiate? again argsAgain =
          fun arg => pure (arg.instantiate (again.zip argsAgain)) :=
        funext (instantiate?_of_length hAgain)
      rw [each, List.mapM_pure]
      rfl
    · rw [instantiate?_of_length h, Option.bind_some, instantiate?_of_length hAgain, once,
        List.zip_map_right]
      rfl

/-- A name applied to itself, twice, and to another name. -/
def selfApplied : Ty := .app (.con "F") [.app (.con "F") [.con "A"]]

/-- A parameter may stand for `Option`, and options that meet in the first pass, in the second or in
both are one. -/
theorem instantiate_substitutes_selfApplied :
    (∀ arg ∈ [Ty.con "Option", .con "B"], arg.OptionFlat) ∧
    (∀ name ∈ ["B"], name ∈ selfApplied.names → name ∈ ["F", "A"]) ∧
    selfApplied.instantiate? ["F", "A"] [.con "Option", .con "B"] =
      some (.option (.con "B")) ∧
    (Ty.option (.con "B")).OptionFlat ∧
    (Ty.option (.con "B")).instantiate? ["B"] [.option .int] = some (.option .int) ∧
    selfApplied.instantiate? ["F", "A"] [.con "Option", .option .int] = some (.option .int) := by
  have flat : ∀ arg ∈ [Ty.con "Option", .con "B"], arg.OptionFlat := by decide
  have covered : ∀ name ∈ ["B"], name ∈ selfApplied.names → name ∈ ["F", "A"] := by decide
  obtain ⟨kept, twice⟩ := instantiate_substitutes selfApplied
  obtain ⟨once, made, stillFlat⟩ := kept ["F", "A"] [.con "Option", .con "B"] rfl flat
  obtain ⟨args', u, again, direct, bound⟩ :=
    twice ["F", "A"] ["B"] [.con "Option", .con "B"] [.option .int] rfl rfl covered (by decide)
  obtain rfl : once = .option (.con "B") := Option.some.inj (made.symm.trans rfl)
  obtain rfl : args' = [.con "Option", .option .int] := Option.some.inj (again.symm.trans rfl)
  obtain rfl : u = .option .int := Option.some.inj (direct.symm.trans rfl)
  rw [made, Option.bind_some] at bound
  exact ⟨flat, covered, made, stillFlat, bound, direct⟩

end RowQuery.Ty
