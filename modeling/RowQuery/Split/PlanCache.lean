import RowQuery.Split.MemberPlan

/-!
# Remembering member plans

A plan depends on the carrier and the expected types alone, so it is computed once for each such
key and never forgotten.  Failures are not remembered.

* `PlanCache` — the remembered plans, and how often a plan was found or had to be computed.
* `PlanCache.resolve` — the plan of a key, computed on the first request; `resolve_cases` lists what
  can become of a request.
* `CacheStats` — the counts.
-/

namespace RowQuery

/-- What determines a plan: the carrier and the expected types. -/
structure PlanKey where
  carrier : Ty
  expected : List Ty
  deriving DecidableEq, Repr

/-- **Remembered plans**, with the number of requests that found one and of those that did not.  The
numbers are unbounded; that a 64-bit count starts again after 2^64 requests is left out. -/
structure PlanCache where
  plans : List (PlanKey × MemberPlan) := []
  hits : Nat := 0
  misses : Nat := 0
  deriving Repr, Inhabited

/-- The counts of a cache. -/
structure CacheStats where
  hits : Nat
  misses : Nat
  entries : Nat
  deriving DecidableEq, Repr

/-- How a request was answered. -/
inductive Resolution where
  /-- From memory. -/
  | remembered (plan : MemberPlan)
  /-- By computing, with this outcome. -/
  | computed (outcome : Except SplitError MemberPlan)

/-- The answer to a request. -/
def Resolution.outcome : Resolution → Except SplitError MemberPlan
  | .remembered plan => .ok plan
  | .computed outcome => outcome

namespace PlanCache

/-- The plan remembered for a key. -/
def find? (cache : PlanCache) (key : PlanKey) : Option MemberPlan := cache.plans.lookup key

/-- **Answering a request.**  A remembered plan is a hit.  Any other request is a miss and is
computed; only a plan is remembered. -/
def resolve (cache : PlanCache) (key : PlanKey) (compute : Unit → Except SplitError MemberPlan) :
    Resolution × PlanCache :=
  match cache.find? key with
  | some plan => (.remembered plan, { cache with hits := cache.hits + 1 })
  | none =>
      let missed := { cache with misses := cache.misses + 1 }
      match compute () with
      | .ok plan => (.computed (.ok plan), { missed with plans := (key, plan) :: cache.plans })
      | .error e => (.computed (.error e), missed)

/-- **What a request can do.**  There are three ways: the plan is there, it is computed and kept, or
there is none. -/
theorem resolve_cases (cache : PlanCache) (key : PlanKey)
    (compute : Unit → Except SplitError MemberPlan) :
    (∃ plan, cache.find? key = some plan ∧
      cache.resolve key compute = (.remembered plan, { cache with hits := cache.hits + 1 })) ∨
    (∃ plan, cache.find? key = none ∧ compute () = .ok plan ∧
      cache.resolve key compute = (.computed (.ok plan),
        { cache with plans := (key, plan) :: cache.plans, misses := cache.misses + 1 })) ∨
    (∃ e, cache.find? key = none ∧ compute () = .error e ∧
      cache.resolve key compute =
        (.computed (.error e), { cache with misses := cache.misses + 1 })) := by
  unfold resolve
  cases found : cache.find? key with
  | some plan => exact .inl ⟨plan, rfl, rfl⟩
  | none =>
      cases computed : compute () with
      | ok plan => exact .inr (.inl ⟨plan, rfl, rfl, rfl⟩)
      | error e => exact .inr (.inr ⟨e, rfl, rfl, rfl⟩)

/-- A new plan answers for its key alone. -/
theorem find?_kept (cache : PlanCache) (key : PlanKey) (plan : MemberPlan) (misses : Nat)
    (k : PlanKey) :
    find? { cache with plans := (key, plan) :: cache.plans, misses } k =
      if k = key then some plan else cache.find? k := by
  simp only [find?, List.lookup_cons]
  by_cases hk : k = key
  · rw [beq_iff_eq.mpr hk, if_pos hk]
  · rw [beq_eq_false_iff_ne.mpr hk, if_neg hk]

/-- The counts of a cache. -/
def stats (cache : PlanCache) : CacheStats := ⟨cache.hits, cache.misses, cache.plans.length⟩

end PlanCache

end RowQuery
