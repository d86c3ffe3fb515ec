import RowQuery.Split.Splitter

/-!
# Configuration

* `FullJoinStrategy`, `JoinOptions` — how outer joins are assembled, and whether absent keys match.
* `Config` — the options of splitting and of joins.
-/

namespace RowQuery

/-- **How the rows of a full outer join are assembled.** -/
inductive FullJoinStrategy where
  /-- The rows of the left join, then one row for each inner element that matches no outer one.
  Repeated rows are kept. -/
  | antiJoin
  /-- The set union of the rows of the left and of the right join. -/
  | union
  deriving DecidableEq, Repr, Inhabited

/-- **Options of joins.** -/
structure JoinOptions where
  fullJoin : FullJoinStrategy := .antiJoin
  /-- Whether an absent key on one side matches an absent key on the other. -/
  nullKeysMatch : Bool := false
  deriving DecidableEq, Repr, Inhabited

/-- **A configuration.** -/
structure Config where
  split : SplitOptions := {}
  join : JoinOptions := {}
  deriving DecidableEq, Repr, Inhabited

end RowQuery
