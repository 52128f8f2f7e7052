import PagePress.Json.Basic

/-!
# Number literals

The grammar of a number literal, and what a literal means. Digits are gathered into a whole number
as long as it stays below `2 ^ 64`; the digits that no longer fit only move the decimal exponent.
-/

namespace PagePress.Json

/-- The parts of a number literal; an exponent has its sign and digits. -/
structure Literal where
  negative : Bool
  whole : List Char
  fraction : Option (List Char)
  exponent : Option (Bool × List Char)

/-! ## Grammar -/

/-- The digits at the front of a text and the text after them. -/
def digitRun (cs : List Char) : List Char × List Char :=
  (cs.takeWhile Char.isDigit, cs.dropWhile Char.isDigit)

/-- The digits at the front of a text, at least one of them. -/
def digitRun1 (cs : List Char) : Except Error (List Char × List Char) :=
  match digitRun cs with
  | ([], _) => fail "a digit is missing in a number"
  | run => .ok run

/-- The whole part: a zero alone or digits that start with another digit. -/
def wholePart : List Char → Except Error (List Char × List Char)
  | '0' :: c :: rest =>
    if c.isDigit then fail "a number starts with a zero" else .ok (['0'], c :: rest)
  | cs => digitRun1 cs

/-- The fraction, when there is a point. -/
def fractionPart : List Char → Except Error (Option (List Char) × List Char)
  | '.' :: rest => do
    let (digits, rest) ← digitRun1 rest
    return (some digits, rest)
  | cs => .ok (none, cs)

/-- The sign of an exponent, positive unless written, and the text after it. -/
def exponentSign : List Char → Bool × List Char
  | '+' :: rest => (false, rest)
  | '-' :: rest => (true, rest)
  | cs => (false, cs)

/-- The exponent, when there is one. -/
def exponentPart : List Char → Except Error (Option (Bool × List Char) × List Char)
  | [] => .ok (none, [])
  | c :: rest =>
    if c = 'e' ∨ c = 'E' then do
      let (negative, rest) := exponentSign rest
      let (digits, rest) ← digitRun1 rest
      return (some (negative, digits), rest)
    else .ok (none, c :: rest)

/-- The minus sign, when there is one. -/
def minusSign : List Char → Bool × List Char
  | '-' :: rest => (true, rest)
  | cs => (false, cs)

/-- The number literal at the front of a text and the text after it. -/
def readLiteral (cs : List Char) : Except Error (Literal × List Char) := do
  let (negative, cs) := minusSign cs
  let (whole, cs) ← wholePart cs
  let (fraction, cs) ← fractionPart cs
  let (exponent, cs) ← exponentPart cs
  return (⟨negative, whole, fraction, exponent⟩, cs)

/-! ## Meaning -/

/-- The value of a digit character. -/
def digitValue (c : Char) : Nat := c.toNat - '0'.toNat

/-- The number that digits write. -/
def digitsValue (digits : List Char) : Nat :=
  digits.foldl (fun value c => 10 * value + digitValue c) 0

/-- Appends digits to a whole number as long as it stays below the word limit; gives the number and
how many digits were left out. -/
def absorb (value : Nat) : List Char → Nat × Nat
  | [] => (value, 0)
  | c :: rest =>
    let next := 10 * value + digitValue c
    if next < wordLimit then absorb next rest else (value, rest.length + 1)

/-- The signed value of an exponent. -/
def exponentValue : Option (Bool × List Char) → Int
  | none => 0
  | some (true, digits) => -(digitsValue digits : Int)
  | some (false, digits) => digitsValue digits

/-- The digits and the decimal exponent of a literal. -/
def Literal.decimal (l : Literal) : Nat × Int :=
  let (whole, skipped) := absorb 0 l.whole
  let fraction := l.fraction.getD []
  let (digits, left) := absorb whole fraction
  (digits, (skipped : Int) - ((fraction.length - left : Nat) : Int) + exponentValue l.exponent)

/-- The whole number of a literal without point and exponent, when 64 bits hold it. A minus sign
before zero leaves no whole number. -/
def Literal.whole? (l : Literal) : Option Int :=
  match l.fraction, l.exponent with
  | none, none =>
    let value := digitsValue l.whole
    if l.negative then
      if 0 < value ∧ value ≤ signedLimit then some (-(value : Int)) else none
    else if value < wordLimit then some value else none
  | _, _ => none

/-- What a literal means. -/
def Literal.meaning (l : Literal) : Json :=
  match l.whole? with
  | some value => .number (.whole value)
  | none =>
    let (digits, exponent) := l.decimal
    match Decimal.Magnitude.ofDecimal? digits exponent with
    | some magnitude => .number (.double l.negative magnitude)
    | none => .unreadable ⟨"a number is out of range"⟩

end PagePress.Json
