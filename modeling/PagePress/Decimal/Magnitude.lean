/-!
# Magnitudes of double precision

A finite magnitude of double precision is a whole mantissa below `2 ^ 53` times a power of two that
is at least `2 ^ -1074`. All arithmetic here is exact arithmetic on natural numbers followed by one
rounding to the nearest magnitude, a tie going to the even mantissa.

A decimal literal is read the way most readers of data files do: the leading digits that fit in 64
bits make a whole number, which is rounded once, and each scaling by a power of ten of at most
`10 ^ 308` rounds once more. A literal with few digits and a small exponent is therefore read
exactly to the nearest magnitude, a long one perhaps to a neighbour.
-/

namespace PagePress.Decimal

/-- The magnitude `mantissa * 2 ^ scale / 2 ^ 1074`. -/
structure Magnitude where
  /-- The digits in base two, fewer than 54 of them. -/
  mantissa : Nat
  /-- How many doublings above the least positive magnitude. -/
  scale : Nat
deriving DecidableEq, Repr

/-- A power of two. -/
def twoPow (exponent : Nat) : Nat := Nat.pow 2 exponent

/-- A power of ten. -/
def tenPow (exponent : Nat) : Nat := Nat.pow 10 exponent

/-- The quotient rounded to the nearest whole number, a tie going to the even one. -/
def roundDiv (num den : Nat) : Nat :=
  let quotient := num / den
  let twice := 2 * (num % den)
  if twice < den then quotient
  else if den < twice then quotient + 1
  else quotient + quotient % 2

namespace Magnitude

/-- Nothing. -/
def zero : Magnitude := ⟨0, 0⟩

/-- The greatest scale of a finite magnitude. -/
def maxScale : Nat := 2045

/-- The magnitude nearest to a quotient, unless it is beyond the greatest one. -/
def ofRatio (num den : Nat) : Option Magnitude :=
  let units := num * twoPow 1074
  let whole := units / den
  let scale := if whole = 0 then 0 else Nat.log2 whole + 1 - 53
  let mantissa := roundDiv units (den * twoPow scale)
  let rounded := if mantissa = twoPow 53 then ⟨twoPow 52, scale + 1⟩ else ⟨mantissa, scale⟩
  if rounded.scale ≤ maxScale then some rounded else none

/-- The magnitude in units of `2 ^ -1074`. -/
def units (x : Magnitude) : Nat := x.mantissa * twoPow x.scale

/-- The product, rounded. -/
def mul? (x y : Magnitude) : Option Magnitude :=
  ofRatio (x.units * y.units) (twoPow 2148)

/-- The quotient, rounded. -/
def div? (x y : Magnitude) : Option Magnitude :=
  ofRatio x.units y.units

/-- A power of ten, rounded. -/
def tenPow? (exponent : Nat) : Option Magnitude :=
  ofRatio (tenPow exponent) 1

/-- The greatest exponent of a power of ten that one scaling uses. -/
def tenLimit : Nat := 308

/-- The magnitude that a literal of some digits and a decimal exponent is read as, or nothing when
it is out of range. Zero has every exponent, and what is below the second scaling is zero. -/
def ofDecimal? (digits : Nat) (exponent : Int) : Option Magnitude := do
  if digits = 0 then
    return zero
  let start ← ofRatio digits 1
  let size := exponent.natAbs
  if 0 ≤ exponent then
    if size ≤ tenLimit then start.mul? (← tenPow? size) else none
  else if size ≤ tenLimit then
    start.div? (← tenPow? size)
  else if size ≤ 2 * tenLimit then
    let step ← start.div? (← tenPow? tenLimit)
    step.div? (← tenPow? (size - tenLimit))
  else
    return zero

end Magnitude

end PagePress.Decimal
