import Mathlib.Data.Finset.Card
import RowQuery.Split.PlanCache

/-!
# What a cache has counted

A cache keeps plans and two numbers, and no record of the calls that it answered.  The record can be
kept beside it, and the cache never says anything else than the record does.

* `Call`, `Answered` — a call, and what it was answered.
* `PlanCache.run` — calls answered one after the other, with the record that they leave.
* `firstSuccess?` — the plan that the first success for a key gave.
* `Answered.IsAnswerAfter` — the answer that a record calls for.
* `PlanCache.Accounts` — a cache agrees with a record: the invariant.
* **`PlanCache.accounts_serve`**, `PlanCache.accounts_run` — one call keeps it, and so does a run.
* **`PlanCache.run_bookkeeping`** — what every run from the empty cache answers and counts.
-/

namespace RowQuery.PlanCache

/-! ## Calls -/

/-- What a cache is asked: for the plan of a key, with a way to compute it.  Two calls for one key
may compute different things. -/
structure Call where
  key : PlanKey
  compute : Unit → Except SplitError MemberPlan

/-- A call with its answer. -/
structure Answered where
  call : Call
  answer : Resolution

namespace Answered

/-- The call ran its computation, with whatever outcome. -/
def ran (a : Answered) : Bool :=
  match a.answer with
  | .remembered _ => false
  | .computed _ => true

/-- The caller got a plan. -/
def succeeded (a : Answered) : Bool := a.answer.outcome.isOk

/-- The call ran its computation in vain. -/
def failed (a : Answered) : Bool :=
  match a.answer with
  | .computed (.error _) => true
  | _ => false

/-- The plan that the caller got, if the call was for this key. -/
def planFor? (a : Answered) (key : PlanKey) : Option MemberPlan :=
  if a.call.key = key then a.answer.outcome.toOption else none

theorem isSome_planFor? {a : Answered} {key : PlanKey} :
    (a.planFor? key).isSome ↔ a.call.key = key ∧ a.succeeded := by
  unfold planFor? succeeded
  split <;> cases a.answer.outcome <;> simp_all [Except.toOption, Except.isOk, Except.toBool]

end Answered

/-! ## Records -/

/-- **The plan that the first success for a key gave.** -/
def firstSuccess? (key : PlanKey) (record : List Answered) : Option MemberPlan :=
  record.findSome? (·.planFor? key)

/-- The keys with a success. -/
def successKeys (record : List Answered) : Finset PlanKey :=
  ((record.filter Answered.succeeded).map (·.call.key)).toFinset

section

variable {key : PlanKey} {record : List Answered}

theorem isSome_firstSuccess? :
    (firstSuccess? key record).isSome ↔ ∃ a ∈ record, a.call.key = key ∧ a.succeeded := by
  simp only [firstSuccess?, List.isSome_findSome?, List.any_eq_true, Answered.isSome_planFor?]

/-- A later answer counts if there was no success before. -/
theorem firstSuccess?_concat (a : Answered) :
    firstSuccess? key (record ++ [a]) = (firstSuccess? key record).or (a.planFor? key) := by
  simp [firstSuccess?, List.findSome?_append]

theorem mem_successKeys : key ∈ successKeys record ↔ (firstSuccess? key record).isSome := by
  rw [isSome_firstSuccess?]
  simp only [successKeys, List.mem_toFinset, List.mem_map, List.mem_filter]
  exact ⟨fun ⟨a, ⟨ha, ok⟩, hk⟩ => ⟨a, ha, hk, ok⟩, fun ⟨a, ha, hk, ok⟩ => ⟨a, ⟨ha, ok⟩, hk⟩⟩

end

/-- **The answer that a record calls for.**  The plan is computed exactly if no earlier call for the
key got one.  Otherwise the first plan is given again. -/
structure Answered.IsAnswerAfter (a : Answered) (record : List Answered) : Prop where
  ran_iff : a.ran ↔ ¬ ∃ b ∈ record, b.call.key = a.call.key ∧ b.succeeded
  outcome_eq : a.answer.outcome =
    match firstSuccess? a.call.key record with
    | some plan => .ok plan
    | none => a.call.compute ()

/-! ## Runs -/

/-- One call, with its answer put on record. -/
def serve (cache : PlanCache) (call : Call) : Answered × PlanCache :=
  let (answer, after) := cache.resolve call.key call.compute
  (⟨call, answer⟩, after)

/-- **Calls answered one after the other**, with the record that they leave. -/
def run (cache : PlanCache) : List Call → List Answered × PlanCache
  | [] => ([], cache)
  | call :: calls =>
      let (answered, after) := cache.serve call
      let (record, last) := after.run calls
      (answered :: record, last)

theorem run_cons (cache : PlanCache) (call : Call) (calls : List Call) :
    cache.run (call :: calls) = ((cache.serve call).1 :: ((cache.serve call).2.run calls).1,
      ((cache.serve call).2.run calls).2) := rfl

/-- **A cache agrees with a record** of the calls that it answered. -/
structure Accounts (cache : PlanCache) (record : List Answered) : Prop where
  /-- The remembered plans are the first ones. -/
  find?_eq : ∀ key, cache.find? key = firstSuccess? key record
  /-- No key is remembered twice. -/
  nodup : (cache.plans.map Prod.fst).Nodup
  hits_eq : cache.hits = record.countP (!·.ran)
  misses_eq : cache.misses = record.countP Answered.ran
  /-- A miss leaves a plan behind or fails. -/
  plans_add_failed : cache.plans.length + record.countP Answered.failed = cache.misses

theorem accounts_empty : Accounts {} [] where
  find?_eq _ := rfl
  nodup := List.nodup_nil
  hits_eq := rfl
  misses_eq := rfl
  plans_add_failed := rfl

section

variable {cache : PlanCache} {record : List Answered}

/-- The remembered keys are those for which there is a plan. -/
theorem mem_keys_iff {key : PlanKey} :
    key ∈ cache.plans.map Prod.fst ↔ (cache.find? key).isSome := by
  rw [← not_iff_not, Bool.not_eq_true, Option.isSome_eq_false_iff, Option.isNone_iff_eq_none, find?,
    List.lookup_eq_none_iff]
  simp only [List.mem_map, not_exists, not_and, bne_iff_ne, ne_eq, @eq_comm _ key]

/-- The entries are counted by key. -/
theorem Accounts.length_plans (h : Accounts cache record) :
    cache.plans.length = (successKeys record).card := by
  have keys : (cache.plans.map Prod.fst).toFinset = successKeys record := by
    ext key
    rw [List.mem_toFinset, mem_keys_iff, h.find?_eq, mem_successKeys]
  rw [← keys, List.toFinset_card_of_nodup h.nodup, List.length_map]

/-- A call is answered as the record calls for. -/
theorem Accounts.isAnswerAfter (h : Accounts cache record) (call : Call) :
    (cache.serve call).1.IsAnswerAfter record := by
  have earlier : (∃ b ∈ record, b.call.key = call.key ∧ b.succeeded) ↔
      (cache.find? call.key).isSome := by rw [h.find?_eq, isSome_firstSuccess?]
  obtain ⟨plan, found, answer⟩ | ⟨plan, found, computed, answer⟩ | ⟨e, found, computed, answer⟩ :=
    cache.resolve_cases call.key call.compute
  all_goals rw [serve, answer]; rw [found] at earlier
  · exact ⟨by simp [Answered.ran, earlier], by simp [Resolution.outcome, ← h.find?_eq, found]⟩
  · exact ⟨by simp [Answered.ran, earlier],
      by simp [Resolution.outcome, ← h.find?_eq, found, computed]⟩
  · exact ⟨by simp [Answered.ran, earlier],
      by simp [Resolution.outcome, ← h.find?_eq, found, computed]⟩

/-- A cache answers for the calls before, and then for the new one. -/
theorem find?_serve (cache : PlanCache) (call : Call) (key : PlanKey) :
    (cache.serve call).2.find? key = (cache.find? key).or ((cache.serve call).1.planFor? key) := by
  obtain ⟨plan, found, answer⟩ | ⟨plan, found, -, answer⟩ | ⟨e, found, -, answer⟩ :=
    cache.resolve_cases call.key call.compute
  all_goals rw [serve, answer]
  · change cache.find? key = _
    by_cases hk : call.key = key
    · rw [← hk, found, Option.some_or]
    · rw [Answered.planFor?, if_neg hk, Option.or_none]
  · rw [find?_kept]
    by_cases hk : call.key = key
    · rw [← hk, found, Option.none_or, Answered.planFor?, if_pos rfl, if_pos rfl]
      rfl
    · rw [Answered.planFor?, if_neg hk, if_neg (Ne.symm hk), Option.or_none]
  · change cache.find? key = _
    rw [Answered.planFor?, Resolution.outcome, Except.toOption, ite_self, Option.or_none]

/-- **One call keeps a cache in agreement with its record.** -/
theorem accounts_serve (h : Accounts cache record) (call : Call) :
    Accounts (cache.serve call).2 (record ++ [(cache.serve call).1]) := by
  have first : ∀ key, (cache.serve call).2.find? key =
      firstSuccess? key (record ++ [(cache.serve call).1]) := fun key => by
    rw [find?_serve, h.find?_eq, firstSuccess?_concat]
  obtain ⟨plan, found, answer⟩ | ⟨plan, found, -, answer⟩ | ⟨e, found, -, answer⟩ :=
    cache.resolve_cases call.key call.compute
  all_goals rw [serve, answer] at first ⊢
  · exact
      { find?_eq := first
        nodup := h.nodup
        hits_eq := by simp [h.hits_eq, Answered.ran]
        misses_eq := by simp [h.misses_eq, Answered.ran]
        plans_add_failed := by simp [← h.plans_add_failed, Answered.failed] }
  · have fresh : call.key ∉ cache.plans.map Prod.fst := by simp [mem_keys_iff, found]
    exact
      { find?_eq := first
        nodup := List.nodup_cons.mpr ⟨fresh, h.nodup⟩
        hits_eq := by simp [h.hits_eq, Answered.ran]
        misses_eq := by simp [h.misses_eq, Answered.ran]
        plans_add_failed := by
          simp [← h.plans_add_failed, Answered.failed]
          omega }
  · exact
      { find?_eq := first
        nodup := h.nodup
        hits_eq := by simp [h.hits_eq, Answered.ran]
        misses_eq := by simp [h.misses_eq, Answered.ran]
        plans_add_failed := by
          simp [← h.plans_add_failed, Answered.failed]
          omega }

/-- A run keeps it as well. -/
theorem accounts_run (h : Accounts cache record) (calls : List Call) :
    Accounts (cache.run calls).2 (record ++ (cache.run calls).1) := by
  induction calls generalizing cache record with
  | nil => simpa [run] using h
  | cons call calls ih =>
      have kept := ih (accounts_serve h call)
      rwa [List.append_assoc, List.singleton_append] at kept

/-- Along a run, each call is answered as the record up to it calls for. -/
theorem isAnswerAfter_of_run (h : Accounts cache record) (calls : List Call)
    {earlier later : List Answered} {a : Answered}
    (answers : (cache.run calls).1 = earlier ++ a :: later) :
    a.IsAnswerAfter (record ++ earlier) := by
  induction calls generalizing cache record earlier with
  | nil => exact absurd answers.symm (by simp [run])
  | cons call calls ih =>
      rw [run_cons] at answers
      cases earlier with
      | nil =>
          obtain ⟨rfl, -⟩ := List.cons.inj answers
          rw [List.append_nil]
          exact h.isAnswerAfter call
      | cons first earlier =>
          obtain ⟨rfl, after⟩ := List.cons.inj answers
          rw [List.append_cons]
          exact ih (accounts_serve h call) after

/-- Each call of a run is answered, in turn. -/
theorem map_call_run (cache : PlanCache) (calls : List Call) :
    (cache.run calls).1.map Answered.call = calls := by
  induction calls generalizing cache with
  | nil => rfl
  | cons call calls ih => exact congrArg (call :: ·) (ih _)

end

/-- **What every run from the empty cache answers and counts.**  Each call is answered as the calls
before it require.  Hits and misses are the calls, misses are the computations, and the entries are
the keys with a success: one for each computation that did not fail. -/
theorem run_bookkeeping {calls : List Call} {record : List Answered} {cache : PlanCache}
    (h : ({} : PlanCache).run calls = (record, cache)) :
    record.map Answered.call = calls ∧
    (∀ earlier a later, record = earlier ++ a :: later → a.IsAnswerAfter earlier) ∧
    cache.stats.hits + cache.stats.misses = calls.length ∧
    cache.stats.misses = record.countP Answered.ran ∧
    cache.stats.entries = (successKeys record).card ∧
    cache.stats.entries + record.countP Answered.failed = cache.stats.misses := by
  have agrees : Accounts cache record := by simpa [h] using accounts_run accounts_empty calls
  have answered : record.map Answered.call = calls := by simpa [h] using map_call_run {} calls
  refine ⟨answered, fun earlier a later split => ?_, ?_, agrees.misses_eq, agrees.length_plans,
    agrees.plans_add_failed⟩
  · exact isAnswerAfter_of_run accounts_empty calls (by rw [h, split])
  · have total := List.length_eq_countP_add_countP Answered.ran (l := record)
    simp only [Bool.not_eq_true, Bool.decide_eq_false] at total
    simp only [← answered, List.length_map, stats, agrees.hits_eq, agrees.misses_eq]
    omega

/-- A failure, a success, a success for another key, and a call that would now fail. -/
def retried : List Call :=
  [⟨⟨.bool, [.int]⟩, fun _ => .error (.noMatchingMember .bool .int)⟩,
    ⟨⟨.bool, [.int]⟩, fun _ => .ok ⟨.bool, []⟩⟩,
    ⟨⟨.bool, []⟩, fun _ => .ok ⟨.int, []⟩⟩,
    ⟨⟨.bool, [.int]⟩, fun _ => .error .emptyParameterList⟩]

/-- The failure is forgotten and the success is not. -/
theorem run_bookkeeping_retried :
    (({} : PlanCache).run retried).2.stats = ⟨1, 3, 2⟩ ∧
      (({} : PlanCache).run retried).1.map (·.answer.outcome) =
        [.error (.noMatchingMember .bool .int), .ok ⟨.bool, []⟩, .ok ⟨.int, []⟩, .ok ⟨.bool, []⟩] ∧
      ∀ earlier a later, (({} : PlanCache).run retried).1 = earlier ++ a :: later →
        a.IsAnswerAfter earlier :=
  ⟨by decide, by decide, (run_bookkeeping rfl).2.1⟩

end RowQuery.PlanCache
