import RowQuery.Toml.Scalar

/-!
# TOML documents

* `Toml.value?` — a value from the front of a text: a string, a truth value, a number, a date, an
  array, or a table in braces.
* `Toml.Statement` — a header or an assignment; a document is a sequence of them, one on a line.
* `Toml.Document.ofText?` — the table that a text describes.

Values nest at most `Toml.nestingLimit` deep, and dotted keys are no longer than that; readers of
values are told how many levels are left.  They also take a bound on the number of steps.  Every
second step takes a character, so twice the length of the text is enough.
-/

namespace RowQuery.Toml

/-! ## Keys -/

/-- Whether a character may stand in a bare key. -/
def isKeyChar (c : Char) : Bool := c.isAlphanum || c = '_' || c = '-'

/-- A key: bare, or a string on one line. -/
def key? : Reader String
  | '"' :: rest => (lineBody? '"' rest).map fun (chars, after) => (String.ofList chars, after)
  | '\'' :: rest => (lineBody? '\'' rest).map fun (chars, after) => (String.ofList chars, after)
  | s =>
      let chars := s.takeWhile isKeyChar
      if chars.isEmpty then none else some (String.ofList chars, s.dropWhile isKeyChar)

/-- How deeply arrays and tables in braces may nest, and how many keys a dotted key may join. -/
def nestingLimit : Nat := 79

/-- **A dotted key** of at most `limit` keys, with blanks around its dots, and the blanks after
it. -/
def pathUpTo? : (limit : Nat) → Reader Path
  | 0, _ => none
  | limit + 1, s => do
      let (key, rest) ← key? (skipBlank s)
      match skipBlank rest with
      | '.' :: rest =>
          let (path, rest) ← pathUpTo? limit rest
          return (key :: path, rest)
      | rest => return ([key], rest)

/-- **A dotted key.** -/
def path? : Reader Path := pathUpTo? nestingLimit

/-! ## Values -/

/-- The words for truth values. -/
def boolean? (s : List Char) : Option (Node × List Char) :=
  let word := s.takeWhile Char.isAlpha
  let rest := s.dropWhile Char.isAlpha
  if word = "true".toList then some (.boolean true, rest)
  else if word = "false".toList then some (.boolean false, rest)
  else none

mutual

/-- **A value** that nests at most `levels` deep. -/
def value? (levels : Nat) : (bound : Nat) → Reader Node
  | 0, _ => none
  | bound + 1, s =>
      match s with
      | '[' :: rest => do
          let inner + 1 := levels | none
          let (items, rest) ← items? inner bound rest
          return (.array items, rest)
      | '\x7b' :: rest => do
          let inner + 1 := levels | none
          match skipBlank rest with
          | '\x7d' :: rest => return (.table .inline [], rest)
          | rest =>
              let (assignments, rest) ← assignments? inner bound rest
              return (.table .inline (← Entries.ofBraces assignments), rest)
      | s =>
          match string? s with
          | some (text, rest) => some (.string text, rest)
          | none => (boolean? s).or (scalar? s)

/-- The members of an array up to its closing bracket.  Lines may end anywhere between them, and
the last one may be followed by a comma. -/
def items? (levels : Nat) : (bound : Nat) → Reader (List Node)
  | 0, _ => none
  | bound + 1, s =>
      match skipLines s with
      | ']' :: rest => some ([], rest)
      | s => do
          let (item, rest) ← value? levels bound s
          match skipLines rest with
          | ',' :: rest =>
              let (items, rest) ← items? levels bound rest
              return (item :: items, rest)
          | ']' :: rest => return ([item], rest)
          | _ => none

/-- The assignments of a table in braces, of which there is at least one, up to the closing brace.
They stand on one line, and no comma follows the last. -/
def assignments? (levels : Nat) : (bound : Nat) → Reader (List (Path × Node))
  | 0, _ => none
  | bound + 1, s => do
      let (assignment, rest) ← assignment? levels bound s
      match skipBlank rest with
      | ',' :: rest =>
          let (assignments, rest) ← assignments? levels bound rest
          return (assignment :: assignments, rest)
      | '\x7d' :: rest => return ([assignment], rest)
      | _ => none

/-- A dotted key, an equals sign and a value. -/
def assignment? (levels : Nat) : (bound : Nat) → Reader (Path × Node)
  | 0, _ => none
  | bound + 1, s => do
      let (path, rest) ← path? s
      match rest with
      | '=' :: rest =>
          let (value, rest) ← value? levels bound (skipBlank rest)
          return ((path, value), rest)
      | _ => none

end

/-! ## Statements -/

/-- **Headers and assignments.** -/
inductive Statement where
  /-- `[a.b]`. -/
  | table (path : Path)
  /-- `[[a.b]]`. -/
  | element (path : Path)
  /-- `a.b = value`. -/
  | assign (path : Path) (value : Node)

/-- A statement from the front of a text. -/
def statement? : Reader Statement
  | '[' :: '[' :: rest => do
      let (path, rest) ← path? rest
      match rest with
      | ']' :: ']' :: rest => return (.element path, rest)
      | _ => none
  | '[' :: rest => do
      let (path, rest) ← path? rest
      match rest with
      | ']' :: rest => return (.table path, rest)
      | _ => none
  | s => do
      let ((path, value), rest) ← assignment? nestingLimit (2 * s.length + 2) s
      return (.assign path value, rest)

/-- All statements of a text.  Each stands on a line of its own. -/
def statements? : (bound : Nat) → List Char → Option (List Statement)
  | 0, _ => none
  | bound + 1, s =>
      match skipLines s with
      | [] => some []
      | s => do
          let (statement, rest) ← statement? s
          return statement :: (← statements? bound (← endOfLine? rest))

namespace Document

/-- The section that assignments go to, and the tables so far, after one more statement. -/
def step (state : Path × Entries) : Statement → Option (Path × Entries)
  | .table path => do return (path, ← state.2.openTable path)
  | .element path => do return (path, ← state.2.openElement path)
  | .assign path value => do return (state.1, ← state.2.assignIn state.1 path value)

/-- **The table that a text describes**, if it is a TOML document.  A byte-order mark may stand at
its front. -/
def ofText? (text : String) : Option Entries := do
  let s := match text.toList with
    | '\ufeff' :: rest => rest
    | s => s
  let statements ← statements? (s.length + 1) s
  let (_, entries) ← statements.foldlM step ([], [])
  return entries

end Document

end RowQuery.Toml
