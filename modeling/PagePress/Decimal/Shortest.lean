import PagePress.Decimal.Magnitude

/-!
# The shortest decimal of a magnitude

A magnitude is written with the fewest digits that still round to it, and of those with the digits
nearest to it. The search is exact: the reals that round to the magnitude form an interval, and for
each digit count the two neighbours of the magnitude on that decimal grid are tested against it.

The text is positional while the decimal point falls between five places before the first digit and
the sixteenth digit, always with a digit after the point; otherwise it is scientific with a signed
exponent.
-/

namespace PagePress.Decimal

/-! ## The interval that rounds to a magnitude -/

/-- The reals between `low / den` and `high / den`, the ends belonging to it or not; `value / den`
is the magnitude itself. -/
structure Interval where
  low : Nat
  value : Nat
  high : Nat
  den : Nat
  closed : Bool

/-- The interval of the reals that are nearest to a magnitude. A mantissa at the lower end of its
binade has its lower neighbour at half the distance. -/
def Magnitude.interval (x : Magnitude) : Interval :=
  let unit := twoPow x.scale
  let below := if x.mantissa = twoPow 52 && 0 < x.scale then 1 else 2
  { low := (4 * x.mantissa - below) * unit
    value := 4 * x.mantissa * unit
    high := (4 * x.mantissa + 2) * unit
    den := 4 * twoPow 1074
    closed := x.mantissa % 2 = 0 }

/-- Whether the whole number `n` counts grid units inside the interval, where the interval is
measured in units of `1 / scaled` grid units. -/
def Interval.contains (i : Interval) (n : Nat) : Bool :=
  if i.closed then i.low ≤ n * i.den && n * i.den ≤ i.high
  else i.low < n * i.den && n * i.den < i.high

/-- The interval measured in grid units of `10 ^ place`. -/
def Interval.onGrid (i : Interval) (place : Int) : Interval :=
  if 0 ≤ place then { i with den := i.den * tenPow place.natAbs }
  else
    let factor := tenPow place.natAbs
    { i with low := i.low * factor, value := i.value * factor, high := i.high * factor }

/-- The neighbour of the value on its grid that lies inside the interval, the nearer one when both
do and the even one when they are equally near. -/
def Interval.gridPoint? (i : Interval) : Option Nat :=
  let below := i.value / i.den
  let above := below + 1
  match i.contains below, i.contains above with
  | true, true => some (roundDiv i.value i.den)
  | true, false => some below
  | false, true => some above
  | false, false => none

/-! ## Digits -/

/-- A decimal `0.d₁d₂… * 10 ^ point`. -/
structure Digits where
  /-- The digits, the first and the last of which are not zero. -/
  digits : List Char
  /-- How many places the decimal point stands after the first digit's left edge. -/
  point : Int
deriving DecidableEq, Repr

/-- A lower bound for the count of digits before the decimal point of a positive magnitude, at most
three below it. -/
def Magnitude.pointBound (x : Magnitude) : Int :=
  ((Nat.log2 x.mantissa + x.scale : Nat) - 1074 : Int) * 30103 / 100000

/-- Whether a positive magnitude is below `10 ^ point`. -/
def Magnitude.belowTenPow (x : Magnitude) (point : Int) : Bool :=
  if 0 ≤ point then x.units < twoPow 1074 * tenPow point.natAbs
  else x.units * tenPow point.natAbs < twoPow 1074

/-- The count of digits before the decimal point of a positive magnitude; negative when zeros
follow the point. -/
def Magnitude.point (x : Magnitude) : Int :=
  let start := x.pointBound
  let candidates := [start, start + 1, start + 2]
  (candidates.find? x.belowTenPow).getD (start + 3)

/-- The digits of a grid point, zeros at the end dropped. -/
def Digits.ofGridPoint (n : Nat) (place : Int) : Digits :=
  let text := Nat.toDigits 10 n
  { digits := (text.reverse.dropWhile (· = '0')).reverse
    point := text.length + place }

/-- The shortest decimal of a positive magnitude, of at most seventeen digits. -/
def Magnitude.shortest (x : Magnitude) : Digits :=
  let point := x.point
  let found := (List.range 17).findSome? fun k =>
    let place := point - (k + 1 : Nat)
    (x.interval.onGrid place).gridPoint?.map (Digits.ofGridPoint · place)
  found.getD ⟨[], 0⟩

/-! ## Text -/

/-- Where positional text ends: the least and the greatest place of the decimal point. -/
def positionalPoints : Int × Int := (-4, 16)

/-- The decimal text of digits. -/
def Digits.text (d : Digits) : List Char :=
  let count := d.digits.length
  if positionalPoints.1 ≤ d.point && d.point ≤ positionalPoints.2 then
    if d.point ≤ 0 then
      '0' :: '.' :: (List.replicate d.point.natAbs '0' ++ d.digits)
    else
      let whole := d.point.natAbs
      if count ≤ whole then d.digits ++ List.replicate (whole - count) '0' ++ ['.', '0']
      else d.digits.take whole ++ '.' :: d.digits.drop whole
  else
    let exponent := d.point - 1
    let mantissa := match d.digits with
      | [] => []
      | [digit] => [digit]
      | digit :: rest => digit :: '.' :: rest
    let sign := if 0 ≤ exponent then '+' else '-'
    mantissa ++ 'e' :: sign :: Nat.toDigits 10 exponent.natAbs

/-- The text of a signed magnitude; zero keeps its sign. -/
def Magnitude.text (negative : Bool) (x : Magnitude) : String :=
  let sign := if negative then ['-'] else []
  let body := if x.mantissa = 0 then ['0', '.', '0'] else x.shortest.text
  String.ofList (sign ++ body)

end PagePress.Decimal
