import RowQuery.Text.Printable

/-!
# Quoted text

A text in double quotes, as values and literals show it.

* `Text.escape` — one character inside the quotes: a short escape for NUL, tab, line feed, carriage
  return, the quote and the backslash; `\u{…}` with lower-case hexadecimal digits for any other
  character that is not printed as it is.
* `Text.quoted` — the whole text.
-/

namespace RowQuery.Text

/-- A character by number: `\u{…}` in lower-case hexadecimal, without padding. -/
def escapeByNumber (c : Char) : List Char :=
  ['\\', 'u', '\x7b'] ++ Nat.toDigits 16 c.toNat ++ ['\x7d']

/-- One character of a quoted text. -/
def escape (c : Char) : List Char :=
  if c = '\x00' then ['\\', '0']
  else if c = '\t' then ['\\', 't']
  else if c = '\n' then ['\\', 'n']
  else if c = '\r' then ['\\', 'r']
  else if c = '"' then ['\\', '"']
  else if c = '\\' then ['\\', '\\']
  else if isPrintable c then [c]
  else escapeByNumber c

/-- **Quoting.**  The text in double quotes, each character escaped where it has to be. -/
def quoted (s : String) : String :=
  String.ofList ('"' :: s.toList.flatMap escape ++ ['"'])

end RowQuery.Text
