import RowQuery.Toml.Text

/-!
# Numbers and dates of a TOML document

A number or a date is a run of letters, digits and the signs `+ - . : _`, so it is read as a whole
and then told by its form.

* `Toml.isInteger`, `Toml.isFloat` — the forms of numbers.  Integers have to be 64-bit words, and
  floating-point numbers must not round to infinity.
* `Toml.isDate`, `Toml.isTime`, `Toml.isDateTime` — the forms of dates and times, with the ranges
  of their parts.
* `Toml.scalar?` — a number or a date from the front of a text.
-/

namespace RowQuery.Toml

/-! ## Digits -/

/-- The number that digits write in a base. -/
def valueOf (base : Nat) (digits : List Char) : Nat :=
  digits.foldl (fun n c => base * n + (hexDigit? c).getD 0) 0

/-- Whether a character is a digit of a base up to sixteen. -/
def isDigitOf (base : Nat) (c : Char) : Bool :=
  match hexDigit? c with
  | some d => d < base
  | none => false

/-- Whether a text is digits of a base, single underscores between them. -/
def areDigits (base : Nat) : List Char → Bool
  | [] => false
  | [c] => isDigitOf base c
  | c :: '_' :: rest => isDigitOf base c && areDigits base rest
  | c :: rest => isDigitOf base c && areDigits base rest

/-- The text without underscores. -/
def withoutUnderscores (s : List Char) : List Char := s.filter (· ≠ '_')

/-- The text without its sign, and whether the sign is a minus. -/
def splitSign : List Char → Bool × List Char
  | '-' :: rest => (true, rest)
  | '+' :: rest => (false, rest)
  | s => (false, s)

/-- Whether a text is a decimal integer without sign: digits that do not begin with a needless
zero. -/
def isDecimal : List Char → Bool
  | ['0'] => true
  | '0' :: _ => false
  | s => areDigits 10 s

/-! ## Numbers -/

/-- **The form of integers.**  Decimal integers may have a sign; the other bases are hexadecimal,
octal and binary. -/
def isInteger (s : List Char) : Bool :=
  match s with
  | '0' :: 'x' :: ds => areDigits 16 ds && valueOf 16 (withoutUnderscores ds) < Nat.pow 2 63
  | '0' :: 'o' :: ds => areDigits 8 ds && valueOf 8 (withoutUnderscores ds) < Nat.pow 2 63
  | '0' :: 'b' :: ds => areDigits 2 ds && valueOf 2 (withoutUnderscores ds) < Nat.pow 2 63
  | s =>
      let (negative, ds) := splitSign s
      isDecimal ds &&
        valueOf 10 (withoutUnderscores ds) < Nat.pow 2 63 + (if negative then 1 else 0)

/-- **The parts of a floating-point number**, as they are written. -/
structure FloatParts where
  negative : Bool
  /-- The digits before the point. -/
  whole : List Char
  /-- The fraction with its point, or nothing. -/
  fraction : List Char
  /-- The exponent with its letter, or nothing. -/
  exponent : List Char

namespace FloatParts

/-- The parts of a text: the exponent begins at the first `e`, the fraction at the first point
before it. -/
def ofText (s : List Char) : FloatParts :=
  let (negative, unsigned) := splitSign s
  let isMark := fun c : Char => c = 'e' || c = 'E'
  let mantissa := unsigned.takeWhile fun c => !isMark c
  { negative
    whole := mantissa.takeWhile (· ≠ '.')
    fraction := mantissa.dropWhile (· ≠ '.')
    exponent := unsigned.dropWhile fun c => !isMark c }

/-- Whether the parts have their forms: a decimal integer with a fraction, an exponent or both. -/
def isFormed (n : FloatParts) : Bool :=
  isDecimal n.whole && (n.fraction ≠ [] || n.exponent ≠ []) &&
    (n.fraction = [] || areDigits 10 (n.fraction.drop 1)) &&
    (n.exponent = [] || areDigits 10 (splitSign (n.exponent.drop 1)).2)

/-- The digits before and after the point, without zeros in front. -/
def digits (n : FloatParts) : List Char :=
  (withoutUnderscores (n.whole ++ n.fraction.drop 1)).dropWhile (· = '0')

/-- The power of ten that the digits are multiplied by. -/
def scale (n : FloatParts) : Int :=
  let (negative, ds) := splitSign (n.exponent.drop 1)
  let e : Int := valueOf 10 (withoutUnderscores ds)
  (if negative then -e else e) - (withoutUnderscores (n.fraction.drop 1)).length

/-- Whether the amount of the number rounds to infinity: it is at least halfway from the greatest
64-bit float, `2 ^ 1024 - 2 ^ 971`, to `2 ^ 1024`.  The number of its places before the point tells
so unless there are 309, and only then is it computed. -/
def overflows (n : FloatParts) : Bool :=
  let places := n.digits.length + n.scale
  if n.digits.isEmpty ∨ places < 309 then false
  else if 309 < places then true
  else
    (Nat.pow 2 1024 - Nat.pow 2 970) * Nat.pow 10 (-n.scale).toNat ≤
      valueOf 10 n.digits * Nat.pow 10 n.scale.toNat

end FloatParts

/-- **The form of floating-point numbers**: a formed number, or the words for infinity and for no
number.  A positive number that rounds to infinity is refused; a negative one is minus infinity. -/
def isFloat (s : List Char) : Bool :=
  let unsigned := (splitSign s).2
  let parts := FloatParts.ofText s
  unsigned = ['i', 'n', 'f'] || unsigned = ['n', 'a', 'n'] ||
    (parts.isFormed && (parts.negative || !parts.overflows))

/-! ## Dates and times -/

/-- The number of two digits, if it is in a range. -/
def twoDigits? (low high : Nat) (a b : Char) : Option Nat :=
  if isDigitOf 10 a && isDigitOf 10 b then
    let n := valueOf 10 [a, b]
    if low ≤ n ∧ n ≤ high then some n else none
  else none

/-- The number of days of a month. -/
def daysIn (year month : Nat) : Nat :=
  if month = 2 then
    if year % 4 = 0 ∧ (year % 100 ≠ 0 ∨ year % 400 = 0) then 29 else 28
  else if month ∈ [4, 6, 9, 11] then 30
  else 31

/-- **The form of dates**, `1979-05-27`: the day exists in its month. -/
def isDate : List Char → Bool
  | [y₁, y₂, y₃, y₄, '-', m₁, m₂, '-', d₁, d₂] =>
      [y₁, y₂, y₃, y₄].all (isDigitOf 10) &&
        match twoDigits? 1 12 m₁ m₂ with
        | some month =>
            (twoDigits? 1 (daysIn (valueOf 10 [y₁, y₂, y₃, y₄]) month) d₁ d₂).isSome
        | none => false
  | _ => false

/-- The form of a time's distance from the standard one: `Z`, `+02:00` or `-02:00`. -/
def isOffset : List Char → Bool
  | [c] => c = 'Z' || c = 'z'
  | [sign, h₁, h₂, ':', m₁, m₂] =>
      (sign = '+' || sign = '-') && (twoDigits? 0 23 h₁ h₂).isSome && (twoDigits? 0 59 m₁ m₂).isSome
  | _ => false

/-- What may follow the seconds of a time: a fraction, and an offset where one is allowed. -/
def isTimeEnd (offset : Bool) (s : List Char) : Bool :=
  let rest := match s with
    | '.' :: ds =>
        if (ds.takeWhile Char.isDigit).isEmpty then s else ds.dropWhile Char.isDigit
    | s => s
  rest.isEmpty || (offset && isOffset rest)

/-- **The form of times**, `07:32:00.5`. -/
def isTime (offset : Bool) : List Char → Bool
  | h₁ :: h₂ :: ':' :: m₁ :: m₂ :: ':' :: s₁ :: s₂ :: rest =>
      (twoDigits? 0 23 h₁ h₂).isSome && (twoDigits? 0 59 m₁ m₂).isSome &&
        (twoDigits? 0 60 s₁ s₂).isSome && isTimeEnd offset rest
  | _ => false

/-- The form of a date with a time that a letter joins to it. -/
def isDateTime (s : List Char) : Bool :=
  match s.drop 10 with
  | 'T' :: time => isDate (s.take 10) && isTime true time
  | 't' :: time => isDate (s.take 10) && isTime true time
  | _ => false

/-! ## Reading -/

/-- Whether a character may stand in a number or a date. -/
def isScalarChar (c : Char) : Bool :=
  c.isAlphanum || c ∈ ['+', '-', '.', ':', '_']

/-- **A number or a date.**  A blank may stand between a date and its time. -/
def scalar? (s : List Char) : Option (Node × List Char) :=
  let token := s.takeWhile isScalarChar
  let rest := s.dropWhile isScalarChar
  if isInteger token || isFloat token then some (.number (String.ofList token), rest)
  else if isDateTime token || isTime false token then
    some (.datetime (String.ofList token), rest)
  else if isDate token then
    let time := (rest.drop 1).takeWhile isScalarChar
    if rest.head? = some ' ' ∧ isTime true time then
      some (.datetime (String.ofList (token ++ ' ' :: time)), (rest.drop 1).dropWhile isScalarChar)
    else some (.datetime (String.ofList token), rest)
  else none

end RowQuery.Toml
