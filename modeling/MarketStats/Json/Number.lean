import MarketStats.Double.Shortest
import MarketStats.Json.Basic

/-!
# The meaning of JSON numbers

A number without fraction and exponent is an integer if sixty-four bits, with
or without a sign, can hold it.  Every other number is a binary64 number.  Its
significand is read into sixty-four bits: digits in front of the point that do
not fit only raise the exponent, and digits behind it are dropped from the
first one that does not fit.  The significand is then multiplied or divided by
a power of ten, with one rounding per operation.
-/

namespace MarketStats

namespace NumberText

/-- The integer that a number stands for.  Negative zero is no integer. -/
def toInt? (written : NumberText) : Option Int :=
  if written.fraction = [] ∧ written.exponent = none then
    let value := Nat.ofDigitChars 10 written.whole 0
    if written.negative then
      if 0 < value ∧ value ≤ 0x8000000000000000 then some (-(value : Int)) else none
    else if value < UInt64.size then
      some value
    else
      none
  else
    none

/-- Read digits behind a significand for as long as it fits sixty-four bits;
the second component holds the digits that were not read. -/
def accumulate (significand : Nat) : List Char → Nat × List Char
  | [] => (significand, [])
  | character :: rest =>
      let next := significand * 10 + (character.toNat - '0'.toNat)
      if next < UInt64.size then accumulate next rest else (significand, character :: rest)

def powerOfTen (exponent : Nat) : Double :=
  Double.ofNat (Nat.pow 10 exponent)

/-- Divide by a power of ten, in steps no larger than binary64 numbers can
express. -/
def divideByPower (value : Double) (exponent : Nat) : Double :=
  if exponent ≤ 308 then
    value.div (powerOfTen exponent)
  else if value.isZero then
    value
  else
    divideByPower (value.div (powerOfTen 308)) (exponent - 308)
termination_by exponent

/-- Multiply by a power of ten, if the result is finite. -/
def multiplyByPower? (value : Double) (exponent : Nat) : Option Double :=
  if value.isZero then
    some value
  else if exponent ≤ 308 then
    let product := value.mul (powerOfTen exponent)
    if product.isFinite then some product else none
  else
    none

/-- The binary64 number that a number stands for, if it is finite. -/
def toDouble? (written : NumberText) : Option Double :=
  let (wholeValue, unreadWhole) := accumulate 0 written.whole
  let (significand, unreadFraction) := accumulate wholeValue written.fraction
  let pointShift : Int :=
    (unreadWhole.length : Int) - ((written.fraction.length - unreadFraction.length : Nat) : Int)
  let exponent : Int :=
    match written.exponent with
    | none => pointShift
    | some (true, digits) => pointShift - Nat.ofDigitChars 10 digits 0
    | some (false, digits) => pointShift + Nat.ofDigitChars 10 digits 0
  let start := Double.ofNat significand
  let absolute :=
    if exponent < 0 then
      some (divideByPower start exponent.natAbs)
    else
      multiplyByPower? start exponent.natAbs
  absolute.map fun value => if written.negative then value.negate else value

end NumberText

end MarketStats
