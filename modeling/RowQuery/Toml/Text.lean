import RowQuery.Toml.Table

/-!
# Strings of a TOML document

Readers take characters from the front of a text and return what they read with the rest, or
nothing if the text does not begin as it has to.

* `Toml.Reader` — readers.
* `Toml.newline?`, `Toml.skipBlank`, `Toml.skipLines` — line ends, blanks, and blank lines with
  comments.
* `Toml.string?` — the four kinds of strings: basic and literal, on one line or on several.
-/

namespace RowQuery.Toml

/-- **Readers**: what was read from the front of a text, and the rest. -/
abbrev Reader (α : Type) := List Char → Option (α × List Char)

/-! ## Blanks and comments -/

/-- Whether a character is a blank within a line. -/
def isBlank (c : Char) : Bool := c = ' ' || c = '\t'

/-- Whether a character may stand in comments and in strings as it is: a tab, or any character that
is no control character. -/
def isPlain (c : Char) : Bool := c = '\t' || (32 ≤ c.toNat && c.toNat ≠ 127)

/-- The rest after blanks. -/
def skipBlank (s : List Char) : List Char := s.dropWhile isBlank

/-- The rest after a line end: a line feed, with or without a carriage return before it. -/
def newline? : List Char → Option (List Char)
  | '\n' :: rest => some rest
  | '\r' :: '\n' :: rest => some rest
  | _ => none

/-- The rest after a comment, if there is one. -/
def skipComment : List Char → List Char
  | '#' :: rest => rest.dropWhile isPlain
  | s => s

/-- What may follow on the line of a statement: blanks, a comment and the line's end. -/
def endOfLine? (s : List Char) : Option (List Char) :=
  match skipComment (skipBlank s) with
  | [] => some []
  | rest => newline? rest

/-- A line end takes at least one character. -/
theorem length_of_newline? {s rest : List Char} (h : newline? s = some rest) :
    rest.length < s.length := by
  unfold newline? at h
  split at h <;> cases h <;> simp only [List.length_cons] <;> omega

/-- Blanks take no characters back. -/
theorem length_skipBlank_le (s : List Char) : (skipBlank s).length ≤ s.length :=
  (List.dropWhile_suffix isBlank).length_le

/-- Nor does a comment. -/
theorem length_skipComment_le (s : List Char) : (skipComment s).length ≤ s.length := by
  unfold skipComment
  split
  case h_1 rest =>
      have := (List.dropWhile_suffix (l := rest) isPlain).length_le
      simp only [List.length_cons]; omega
  case h_2 => exact Nat.le_refl _

/-- The rest after blanks, comments and line ends. -/
def skipLines (s : List Char) : List Char :=
  match _h : newline? (skipComment (skipBlank s)) with
  | some rest => skipLines rest
  | none => skipComment (skipBlank s)
termination_by s.length
decreasing_by
  have := length_of_newline? _h
  have := length_skipComment_le (skipBlank s)
  have := length_skipBlank_le s
  omega

/-! ## Escapes -/

/-- The number of a hexadecimal digit. -/
def hexDigit? (c : Char) : Option Nat :=
  if '0' ≤ c ∧ c ≤ '9' then some (c.toNat - '0'.toNat)
  else if 'a' ≤ c ∧ c ≤ 'f' then some (c.toNat - 'a'.toNat + 10)
  else if 'A' ≤ c ∧ c ≤ 'F' then some (c.toNat - 'A'.toNat + 10)
  else none

/-- The character of a number in hexadecimal digits; surrogates and numbers beyond the last
character have none. -/
def charOfHex? (digits : List Char) : Option Char := do
  let ds ← digits.mapM hexDigit?
  let n := ds.foldl (fun n d => 16 * n + d) 0
  if n.isValidChar then some (Char.ofNat n) else none

/-- The character of a short escape. -/
def shortEscape? : Char → Option Char
  | 'b' => some '\x08'
  | 't' => some '\t'
  | 'n' => some '\n'
  | 'f' => some '\x0c'
  | 'r' => some '\r'
  | '"' => some '"'
  | '\\' => some '\\'
  | _ => none

/-- An escaped character, after the backslash. -/
def escape? : Reader Char
  | 'u' :: rest => do return (← charOfHex? (← digits 4 rest), rest.drop 4)
  | 'U' :: rest => do return (← charOfHex? (← digits 8 rest), rest.drop 8)
  | c :: rest => do return (← shortEscape? c, rest)
  | [] => none
where
  /-- The next `n` characters, if there are as many. -/
  digits (n : Nat) (s : List Char) : Option (List Char) :=
    if n ≤ s.length then some (s.take n) else none

/-- An escape takes at least one character. -/
theorem length_of_escape? {s rest : List Char} {c : Char} (h : escape? s = some (c, rest)) :
    rest.length < s.length := by
  unfold escape? at h
  split at h
  case h_4 => cases h
  all_goals
    simp only [Option.bind_eq_bind, Option.bind_eq_some_iff, Option.pure_def,
      Option.some.injEq, Prod.mk.injEq] at h
    grind

/-! ## Strings -/

/-- A string on one line, after its opening quote.  In a basic string a backslash begins an
escape. -/
def lineBody? (quote : Char) (s : List Char) : Option (List Char × List Char) :=
  match s with
  | [] => none
  | c :: rest =>
      if c = quote then some ([], rest)
      else if c = '\\' ∧ quote = '"' then
        match _h : escape? rest with
        | some (d, after) => do
            let (body, after) ← lineBody? quote after
            return (d :: body, after)
        | none => none
      else if isPlain c then do
        let (body, after) ← lineBody? quote rest
        return (c :: body, after)
      else none
termination_by s.length
decreasing_by
  · have := length_of_escape? _h
    simp only [List.length_cons]; omega
  · simp

/-- The rest after a backslash that ends a line: blanks, the line's end, and all blanks and line
ends that follow. -/
def joinLines? (s : List Char) : Option (List Char) := do
  let rest ← newline? (skipBlank s)
  return skipBlankLines rest
where
  /-- The rest after blanks and line ends. -/
  skipBlankLines (s : List Char) : List Char :=
    match _h : newline? (skipBlank s) with
    | some rest => skipBlankLines rest
    | none => skipBlank s
  termination_by s.length
  decreasing_by
    have := length_of_newline? _h
    have := length_skipBlank_le s
    omega

/-- Blank lines take no characters back. -/
theorem length_skipBlankLines_le (s : List Char) :
    (joinLines?.skipBlankLines s).length ≤ s.length := by
  fun_induction joinLines?.skipBlankLines s with
  | case1 s rest h ih =>
      have := length_of_newline? h
      have := length_skipBlank_le s
      omega
  | case2 s h => exact length_skipBlank_le s

/-- A joined line takes at least its end. -/
theorem length_of_joinLines? {s rest : List Char} (h : joinLines? s = some rest) :
    rest.length < s.length := by
  unfold joinLines? at h
  simp only [Option.bind_eq_bind, Option.bind_eq_some_iff, Option.pure_def,
    Option.some.injEq] at h
  obtain ⟨line, hline, rfl⟩ := h
  have := length_of_newline? hline
  have := length_skipBlank_le s
  have := length_skipBlankLines_le line
  omega

/-- A string on several lines, after its opening quotes.  Three quotes end it, and up to two more
before them belong to it.  In a basic string a backslash begins an escape or joins lines; every
line end reads as a line feed. -/
def linesBody? (quote : Char) (s : List Char) : Option (List Char × List Char) :=
  match s with
  | [] => none
  | c :: rest =>
      if c = quote then
        let run := (c :: rest).takeWhile (· = quote)
        if run.length < 3 then do
          let (body, after) ← linesBody? quote rest
          return (c :: body, after)
        else if run.length ≤ 5 then some (run.drop 3, (c :: rest).drop run.length)
        else none
      else if c = '\\' ∧ quote = '"' then
        match _h : escape? rest, _hj : joinLines? rest with
        | some (d, after), _ => do
            let (body, after) ← linesBody? quote after
            return (d :: body, after)
        | none, some after => linesBody? quote after
        | none, none => none
      else
        match _h : newline? (c :: rest) with
        | some after => do
            let (body, after) ← linesBody? quote after
            return ('\n' :: body, after)
        | none =>
            if isPlain c then do
              let (body, after) ← linesBody? quote rest
              return (c :: body, after)
            else none
termination_by s.length
decreasing_by
  · simp
  · have := length_of_escape? _h
    simp only [List.length_cons]; omega
  · have := length_of_joinLines? _hj
    simp only [List.length_cons]; omega
  · exact length_of_newline? _h
  · simp

/-- **A string** of any kind.  A line end right after the opening quotes of a string on several
lines does not belong to it. -/
def string? : Reader String
  | q :: rest =>
      if q = '"' ∨ q = '\'' then
        let body := match rest with
          | a :: b :: after =>
              if a = q ∧ b = q then linesBody? q ((newline? after).getD after) else lineBody? q rest
          | _ => lineBody? q rest
        body.map fun (chars, after) => (String.ofList chars, after)
      else none
  | [] => none

end RowQuery.Toml
