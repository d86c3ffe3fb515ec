/-!
# Paths that lead to no file

A path is walked name by name.  Of the directories on the way only those that are always there are
known: the root, `.` and `..`.

* `PathFault` — why a path leads to no file.
* `PathFault.ofPath` — the fault of a path under which there is no file.
* `PathFault.message` — its wording.
-/

namespace RowQuery

/-- **Why a path leads to no file.** -/
inductive PathFault where
  /-- Nothing has the name. -/
  | missing
  /-- The path or the name is longer than a file system allows. -/
  | tooLong
  /-- The path holds the character that ends paths. -/
  | nulCharacter
  /-- The path leads to a directory. -/
  | directory
  deriving DecidableEq, Repr

namespace PathFault

/-- How many bytes a path may have. -/
def pathLimit : Nat := 4095

/-- How many bytes a name may have. -/
def nameLimit : Nat := 255

/-- The number of bytes of a text. -/
def byteCount (s : List Char) : Nat := (String.ofList s).utf8ByteSize

/-- The names in a path, between its slashes. -/
def names : List Char → List (List Char)
  | [] => [[]]
  | c :: rest =>
      if c = '/' then [] :: names rest
      else match names rest with
        | name :: others => (c :: name) :: others
        | [] => [[c]]

/-- Whether a name leads to a directory wherever it stands: an empty one stays in place. -/
def isAlwaysThere (name : List Char) : Bool :=
  name = [] || name = ['.'] || name = ['.', '.']

/-- **The fault of a path under which there is no file.**  The first name that may be missing
decides, and the ones after it are not looked at. -/
def ofPath (path : String) : PathFault :=
  let s := path.toList
  if '\x00' ∈ s then .nulCharacter
  else if pathLimit < byteCount s then .tooLong
  else match (names s).find? fun name => !isAlwaysThere name with
    | some name => if nameLimit < byteCount name then .tooLong else .missing
    | none => if s = [] then .missing else .directory

/-- The wording of a fault. -/
def message : PathFault → String
  | .missing => "No such file or directory (os error 2)"
  | .tooLong => "File name too long (os error 36)"
  | .nulCharacter => "file name contained an unexpected NUL byte"
  | .directory => "Is a directory (os error 21)"

/-- Exactly the paths with a NUL character are faulted for it, whatever else is wrong with them. -/
theorem ofPath_eq_nulCharacter_iff (path : String) :
    ofPath path = .nulCharacter ↔ '\x00' ∈ path.toList := by
  unfold ofPath
  grind

end PathFault

end RowQuery
