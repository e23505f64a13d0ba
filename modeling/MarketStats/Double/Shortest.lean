import MarketStats.Double.Basic

/-!
# Shortest decimal digits

A binary64 number is written with the fewest decimal digits that still lie
closer to it than to any other number.  Among the digit strings of that
length the one nearest to the number is taken; where two are equally near, a
rule for ties decides.
-/

namespace MarketStats

namespace Double

/-- A decimal number `digits * 10 ^ exponent`. -/
structure Scientific where
  digits : Nat
  exponent : Int
deriving DecidableEq, Repr

/-- Multiply a quotient by `base ^ exponent`; the two components are the new
numerator and denominator. -/
def scaleQuotient (numerator denominator : Nat) (exponent : Int) (base : Nat) : Nat × Nat :=
  (numerator * Nat.pow base exponent.toNat, denominator * Nat.pow base (-exponent).toNat)

/-- The set of real numbers that round to a positive finite number, as a range
between two multiples of a quarter unit. -/
structure RoundingRange where
  lower : Nat
  middle : Nat
  upper : Nat
  unitExponent : Int
  closed : Bool

/-- The rounding range of a number, in quarter units. -/
def roundingRange (number : Double) : RoundingRange :=
  let significand := number.significand
  let lowerGap :=
    if significand = fractionUnits ∧ leastExponent < number.unitExponent then 1 else 2
  { lower := 4 * significand - lowerGap
    middle := 4 * significand
    upper := 4 * significand + 2
    unitExponent := number.unitExponent - 2
    closed := significand % 2 = 0 }

def RoundingRange.contains (range : RoundingRange) (candidate : Nat) (exponent : Int) : Bool :=
  let (decimalTop, decimalBottom) := scaleQuotient candidate 1 exponent 10
  let (unitTop, unitBottom) := scaleQuotient 1 1 range.unitExponent 2
  let value := decimalTop * unitBottom
  let unit := unitTop * decimalBottom
  if range.closed then
    decide (range.lower * unit ≤ value) && decide (value ≤ range.upper * unit)
  else
    decide (range.lower * unit < value) && decide (value < range.upper * unit)

/-- Try the grid of multiples of `10 ^ exponent`: of the two multiples next to
the number, the nearer one in the range. -/
def RoundingRange.onGrid? (range : RoundingRange) (rule : TieRule) (exponent : Int) :
    Option Scientific :=
  let (unitTop, unitBottom) := scaleQuotient 1 1 range.unitExponent 2
  let (gridTop, gridBottom) := scaleQuotient 1 1 exponent 10
  let top := range.middle * unitTop * gridBottom
  let bottom := unitBottom * gridTop
  let below := top / bottom
  let nearest := rule.round top bottom
  let other := if nearest = below then below + 1 else below
  if range.contains nearest exponent then
    some ⟨nearest, exponent⟩
  else if range.contains other exponent then
    some ⟨other, exponent⟩
  else
    none

/-- Number of decimal digits in front of the point of a quotient, zero or
negative for quotients below one. -/
def decimalExponent (numerator denominator : Nat) : Int :=
  if denominator ≤ numerator then
    ((Nat.toDigits 10 (numerator / denominator)).length : Int)
  else
    let inverse := (denominator - 1) / numerator
    1 - ((Nat.toDigits 10 inverse).length : Int)

/-- Search the grids from coarse to fine; seventeen digits always suffice. -/
def RoundingRange.search (range : RoundingRange) (rule : TieRule) (leading : Int) (count : Nat) :
    Nat → Scientific
  | 0 => ⟨0, 0⟩
  | remaining + 1 =>
      match range.onGrid? rule (leading - count) with
      | some found => found
      | none => range.search rule leading (count + 1) remaining

def Scientific.trimmed (number : Scientific) : Scientific :=
  if divisible : number.digits % 10 = 0 ∧ number.digits ≠ 0 then
    Scientific.trimmed ⟨number.digits / 10, number.exponent + 1⟩
  else
    number
termination_by number.digits
decreasing_by omega

/-- The shortest decimal form of the absolute value of a finite number. -/
def shortest (number : Double) (rule : TieRule) : Scientific :=
  if number.isZero then
    ⟨0, 0⟩
  else
    let leading := decimalExponent number.numerator number.denominator
    (number.roundingRange.search rule leading 1 17).trimmed

/-- The digits of a decimal number written out around the point, with no
point behind a whole number. -/
def Scientific.toPositional (number : Scientific) : List Char :=
  let digits := Nat.toDigits 10 number.digits
  if 0 ≤ number.exponent then
    digits ++ List.replicate number.exponent.toNat '0'
  else
    let places := (-number.exponent).toNat
    let padded := List.replicate (places + 1 - digits.length) '0' ++ digits
    let whole := padded.length - places
    padded.take whole ++ '.' :: padded.drop whole

/-- The shortest form of a finite number without an exponent.  A tie goes away
from zero. -/
def toPositional (number : Double) : List Char :=
  let sign := if number.isNegative then ['-'] else []
  sign ++ (number.shortest .upward).toPositional

end Double

end MarketStats
