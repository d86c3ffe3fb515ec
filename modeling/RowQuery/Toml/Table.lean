/-!
# Tables of a TOML document

A document is a tree of tables.  Headers open tables and assignments add to them; each table and
each key is defined once, and how a table came about decides what may still be added to it.

* `Toml.Node` — values and tables.
* `Toml.Origin` — how a table came about.
* `Toml.Entries` — the keys of a table with their nodes, in the order of their definition.
* `Entries.assign` — a dotted key and its value; `Entries.openTable`, `Entries.openElement` — the
  headers `[a.b]` and `[[a.b]]`.

An operation that would define something twice has no result.
-/

namespace RowQuery.Toml

/-- **How a table came about.** -/
inductive Origin where
  /-- By its own header, as a member of an array of tables, or as the whole document. -/
  | header
  /-- As a part of the path of a header; its own header may still follow. -/
  | implied
  /-- By a dotted key; further dotted keys may add to it. -/
  | dotted
  /-- Written in braces, and complete. -/
  | inline
  deriving DecidableEq, Repr

/-- **Values and tables.** -/
inductive Node where
  | string (s : String)
  | boolean (b : Bool)
  /-- An integer or a floating-point number, as it is written. -/
  | number (text : String)
  /-- A date, a time or both, as it is written. -/
  | datetime (text : String)
  | array (items : List Node)
  | table (origin : Origin) (entries : List (String × Node))
  /-- An array of tables; its last member is the one that is being written. -/
  | tables (elements : List (List (String × Node)))
  deriving Inhabited, Repr

/-- The keys of a table with their nodes. -/
abbrev Entries := List (String × Node)

/-- A path of keys. -/
abbrev Path := List String

namespace Entries

/-- A change to the node of a key; a key without a node gets one at the end. -/
def update (key : String) (change : Option Node → Option Node) : Entries → Option Entries
  | [] => do return [(key, ← change none)]
  | (k, node) :: rest =>
      if k = key then do return (k, ← change (some node)) :: rest
      else do return (k, node) :: (← update key change rest)

/-- A definition of a key that has none. -/
def define (key : String) (node : Node) (entries : Entries) : Option Entries :=
  entries.update key fun
    | none => some node
    | some _ => none

/-- **A change below a path.**  Missing tables are made with the origin `made`; a table may be
passed through if `passes` admits its origin, and of an array of tables the last member is meant.
The change is told the origin of the table that it changes. -/
def below (passes : Origin → Bool) (made : Origin)
    (change : Origin → Entries → Option Entries) : Path → Origin → Entries → Option Entries
  | [], origin, entries => change origin entries
  | key :: path, _, entries =>
      entries.update key fun
        | none => do return .table made (← below passes made change path made [])
        | some (.table origin sub) =>
            if passes origin then do
              return .table origin (← below passes made change path origin sub)
            else none
        | some (.tables elements) => do
            let last ← elements.getLast?
            return .tables (elements.dropLast ++ [← below passes made change path .header last])
        | some _ => none

/-- The last key of a path, and the path before it. -/
def splitLast? (path : Path) : Option (Path × String) := do
  return (path.dropLast, ← path.getLast?)

/-- The tables that a dotted key may pass. -/
def passesInKey : Origin → Bool
  | .dotted | .implied => true
  | .header | .inline => false

/-- The tables that a header may pass. -/
def passesInHeader : Origin → Bool
  | .inline => false
  | .header | .implied | .dotted => true

/-- **Assigning a value to a dotted key.**  Tables on the way are made by dotted keys, and so is
the one that the last key belongs to, if the key has a path at all. -/
def assign (path : Path) (value : Node) (entries : Entries) : Option Entries := do
  let (path, key) ← splitLast? path
  let change := fun (origin : Origin) (sub : Entries) =>
    if path = [] ∨ origin = .dotted then sub.define key value else none
  below passesInKey .dotted change path .header entries

/-- Assigning in the section of a header. -/
def assignIn (under : Path) (path : Path) (value : Node) (entries : Entries) :
    Option Entries :=
  below passesInHeader .implied (fun _ sub => sub.assign path value) under .header entries

/-- **The header of a table.**  A table that longer headers implied is opened now; any other must
not exist yet. -/
def openTable (path : Path) (entries : Entries) : Option Entries := do
  let (path, key) ← splitLast? path
  let change := fun (_ : Origin) (sub : Entries) => sub.update key fun
    | none => some (.table .header [])
    | some (.table .implied inner) => some (.table .header inner)
    | some _ => none
  below passesInHeader .implied change path .header entries

/-- **The header of one more member of an array of tables.** -/
def openElement (path : Path) (entries : Entries) : Option Entries := do
  let (path, key) ← splitLast? path
  let change := fun (_ : Origin) (sub : Entries) => sub.update key fun
    | none => some (.tables [[]])
    | some (.tables elements) => some (.tables (elements ++ [[]]))
    | some _ => none
  below passesInHeader .implied change path .header entries

/-- The table written in braces with these assignments. -/
def ofBraces (assignments : List (Path × Node)) : Option Entries :=
  assignments.foldlM (fun entries (path, value) => entries.assign path value) []

end Entries

end RowQuery.Toml
