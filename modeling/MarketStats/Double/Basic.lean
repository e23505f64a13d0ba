import MarketStats.Rounding

/-!
# Binary64 numbers

Leaderboard scores are binary64 numbers.  A number is its sixty-four bits, and
every operation is exact arithmetic on quotients of natural numbers followed
by one rounding to the nearest representable number, ties to the even
neighbour.  The operations are stated for finite numbers; an overflow gives
infinity.
-/

namespace MarketStats

/-- A binary64 number, given by its bits. -/
structure Double where
  bits : UInt64
deriving DecidableEq, Repr

namespace Double

def leastExponent : Int := -1074

/-- The bits without the sign are fewer than this number, which is the weight
of the sign bit. -/
def signWeight : Nat := 0x8000000000000000

def fractionUnits : Nat := 0x10000000000000

/-- Position of infinity among the nonnegative numbers in increasing order. -/
def infiniteMagnitude : Nat := 2047 * fractionUnits

/-- Position of the absolute value among the nonnegative numbers in increasing
order; the bits without the sign. -/
def magnitude (number : Double) : Nat :=
  number.bits.toNat % signWeight

def isNegative (number : Double) : Bool :=
  decide (signWeight ≤ number.bits.toNat)

/-- The number with the given sign and position, at most infinity. -/
def ofMagnitude (negative : Bool) (magnitude : Nat) : Double :=
  ⟨UInt64.ofNat ((if negative then signWeight else 0) + min magnitude infiniteMagnitude)⟩

def zero : Double := ofMagnitude false 0

def infinity (negative : Bool) : Double := ofMagnitude negative infiniteMagnitude

def isFinite (number : Double) : Bool :=
  decide (number.magnitude < infiniteMagnitude)

def isZero (number : Double) : Bool :=
  number.magnitude == 0

def negate (number : Double) : Double :=
  ofMagnitude (!number.isNegative) number.magnitude

def significand (number : Double) : Nat :=
  let field := number.magnitude / fractionUnits
  let fraction := number.magnitude % fractionUnits
  if field = 0 then fraction else fraction + fractionUnits

def unitExponent (number : Double) : Int :=
  let field := number.magnitude / fractionUnits
  leastExponent + ((field - 1 : Nat) : Int)

def numerator (number : Double) : Nat :=
  number.significand * Nat.pow 2 number.unitExponent.toNat

/-- Denominator of the absolute value, a power of two. -/
def denominator (number : Double) : Nat :=
  Nat.pow 2 (-number.unitExponent).toNat

def signedNumerator (number : Double) : Int :=
  if number.isNegative then -(number.numerator : Int) else number.numerator

/-- The binary exponent `e` with `2 ^ e ≤ numerator / denominator < 2 ^ (e + 1)`,
for a positive quotient. -/
def binaryExponent (numerator denominator : Nat) : Int :=
  let guess : Int := (numerator.log2 : Int) - (denominator.log2 : Int)
  if denominator * Nat.pow 2 guess.toNat ≤ numerator * Nat.pow 2 (-guess).toNat then
    guess
  else
    guess - 1

/-- The representable number nearest to a quotient, ties to even, with the
given sign. -/
def ofQuotient (negative : Bool) (numerator denominator : Nat) : Double :=
  if numerator = 0 then
    ofMagnitude negative 0
  else
    let unit := max (binaryExponent numerator denominator - 52) leastExponent
    let units :=
      roundHalfEven (numerator * Nat.pow 2 (-unit).toNat) (denominator * Nat.pow 2 unit.toNat)
    ofMagnitude negative ((unit - leastExponent).toNat * fractionUnits + units)

def ofNat (value : Nat) : Double :=
  ofQuotient false value 1

/-- Sum of finite numbers; an exact zero is positive. -/
def add (first second : Double) : Double :=
  let sum :=
    first.signedNumerator * second.denominator + second.signedNumerator * first.denominator
  ofQuotient (decide (sum < 0)) sum.natAbs (first.denominator * second.denominator)

def mul (first second : Double) : Double :=
  ofQuotient (first.isNegative != second.isNegative)
    (first.numerator * second.numerator) (first.denominator * second.denominator)

def div (first second : Double) : Double :=
  ofQuotient (first.isNegative != second.isNegative)
    (first.numerator * second.denominator) (first.denominator * second.numerator)

/-- The whole number nearest to a finite number, ties away from zero. -/
def round (number : Double) : Double :=
  ofQuotient number.isNegative (roundHalfUp number.numerator number.denominator) 1

/-- Position in the numerical order of all numbers except those without
value.  The two zeros share one position. -/
def rank (number : Double) : Int :=
  if number.isNegative then -(number.magnitude : Int) else number.magnitude

theorem magnitude_ofMagnitude (negative : Bool) (magnitude : Nat) :
    (ofMagnitude negative magnitude).magnitude = min magnitude infiniteMagnitude := by
  have small : min magnitude infiniteMagnitude < 0x8000000000000000 :=
    Nat.lt_of_le_of_lt (Nat.min_le_right _ _) (by decide)
  cases negative
  · simp only [ofMagnitude, Double.magnitude, signWeight, UInt64.toNat_ofNat',
      Bool.false_eq_true, if_false]
    omega
  · simp only [ofMagnitude, Double.magnitude, signWeight, UInt64.toNat_ofNat', if_true]
    omega

theorem isNegative_ofMagnitude (negative : Bool) (magnitude : Nat) :
    (ofMagnitude negative magnitude).isNegative = negative := by
  have small : min magnitude infiniteMagnitude < 0x8000000000000000 :=
    Nat.lt_of_le_of_lt (Nat.min_le_right _ _) (by decide)
  cases negative
  · simp only [ofMagnitude, Double.isNegative, signWeight, UInt64.toNat_ofNat',
      Bool.false_eq_true, if_false, decide_eq_false_iff_not]
    omega
  · simp only [ofMagnitude, Double.isNegative, signWeight, UInt64.toNat_ofNat', if_true,
      decide_eq_true_eq]
    omega

end Double

end MarketStats
