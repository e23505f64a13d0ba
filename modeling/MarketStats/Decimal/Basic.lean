/-!
# Decimal amounts

Prices and volumes are decimals with a 96-bit coefficient and at most
twenty-eight fractional digits.  The scale is part of the value, so `1.5` and
`1.50` are different decimals that compare as equal amounts.  This file holds
the type, its written form, and the numerical comparison.
-/

namespace MarketStats

def Decimal.coefficientBound : Nat := 0x1000000000000000000000000

def Decimal.maxScale : Nat := 28

/-- The amount `coefficient / 10 ^ scale`, negated when `negative` holds.
Zero has a scale too, and a sign, which shows in its written form only. -/
structure Decimal where
  negative : Bool
  coefficient : Nat
  scale : Nat
  coefficient_lt : coefficient < Decimal.coefficientBound
  scale_le : scale ≤ Decimal.maxScale
deriving DecidableEq, Repr

namespace Decimal

/-- The decimal with the given parts, if they are in range. -/
def ofParts? (negative : Bool) (coefficient scale : Nat) : Option Decimal :=
  if inRange : coefficient < coefficientBound ∧ scale ≤ maxScale then
    some
      { negative
        coefficient
        scale
        coefficient_lt := inRange.1
        scale_le := inRange.2 }
  else
    none

/-- The decimal with the given parts, if they are in range.  The sign of a
zero is dropped. -/
def ofValue? (negative : Bool) (coefficient scale : Nat) : Option Decimal :=
  ofParts? (negative && coefficient != 0) coefficient scale

def zero : Decimal :=
  { negative := false
    coefficient := 0
    scale := 0
    coefficient_lt := by decide
    scale_le := by decide }

/-- A whole number, if its absolute value fits the coefficient. -/
def ofInt? (value : Int) : Option Decimal :=
  ofValue? (decide (value < 0)) value.natAbs 0

def signedCoefficient (amount : Decimal) : Int :=
  if amount.negative then -(amount.coefficient : Int) else amount.coefficient

/-- The signed coefficient the amount has when it is written with `scale`
fractional digits, for a scale no smaller than its own. -/
def coefficientAt (amount : Decimal) (scale : Nat) : Int :=
  amount.signedCoefficient * (Nat.pow 10 (scale - amount.scale) : Nat)

/-- Numerical order, independent of the scales. -/
def lt (first second : Decimal) : Bool :=
  let scale := max first.scale second.scale
  decide (first.coefficientAt scale < second.coefficientAt scale)

/-- The numerically smallest amount; the earliest of several equal ones. -/
def least? : List Decimal → Option Decimal
  | [] => none
  | first :: rest =>
      some (rest.foldl (fun best next => if next.lt best then next else best) first)

/-- Decimal digits of a number, without leading zeros. -/
def digitsOf (value : Nat) : List Char :=
  Nat.toDigits 10 value

/-- The written form: at least one digit before the point, exactly `scale`
digits after it, and no point when the scale is zero. -/
def toChars (amount : Decimal) : List Char :=
  let digits := digitsOf amount.coefficient
  let padded := List.replicate (amount.scale + 1 - digits.length) '0' ++ digits
  let wholeLength := padded.length - amount.scale
  let sign := if amount.negative then ['-'] else []
  let fraction :=
    if amount.scale = 0 then [] else '.' :: padded.drop wholeLength
  sign ++ padded.take wholeLength ++ fraction

def toText (amount : Decimal) : String :=
  String.ofList amount.toChars

@[simp]
theorem signedCoefficient_zero : zero.signedCoefficient = 0 := rfl

@[simp]
theorem least?_nil : least? [] = none := rfl

theorem ofParts?_eq_some {negative : Bool} {coefficient scale : Nat} {amount : Decimal}
    (built : ofParts? negative coefficient scale = some amount) :
    amount.negative = negative ∧ amount.coefficient = coefficient ∧ amount.scale = scale := by
  unfold ofParts? at built
  split at built
  · cases built
    exact ⟨rfl, rfl, rfl⟩
  · cases built

/-- Taking a decimal apart and putting it together again changes nothing. -/
theorem ofParts?_parts (amount : Decimal) :
    ofParts? amount.negative amount.coefficient amount.scale = some amount :=
  dif_pos ⟨amount.coefficient_lt, amount.scale_le⟩

/-- The same holds when the sign of a zero is dropped, unless there is one. -/
theorem ofValue?_parts (amount : Decimal)
    (unsigned : amount.coefficient = 0 → amount.negative = false) :
    ofValue? amount.negative amount.coefficient amount.scale = some amount := by
  have sign : (amount.negative && amount.coefficient != 0) = amount.negative := by
    by_cases isZero : amount.coefficient = 0
    · simp [isZero, unsigned isZero]
    · simp [isZero]
  rw [ofValue?, sign, ofParts?_parts]

end Decimal

end MarketStats
