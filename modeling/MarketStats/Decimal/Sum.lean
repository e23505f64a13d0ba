import MarketStats.Decimal.Basic
import MarketStats.Rounding

/-!
# Adding decimal amounts

A sum is written with the larger of the two scales.  When its coefficient
would be too large the scale is reduced, rounding to the even neighbour, until
it fits; a whole number that does not fit has no sum.  Adding zero is special:
a zero on the left gives the right amount with its own scale, and a zero on
the right leaves the left amount alone.
-/

namespace MarketStats

namespace Decimal

/-- Write `value / 10 ^ (dropped + scale)` with at most `scale` fractional
digits, as many as fit. -/
def fit? (negative : Bool) (value dropped : Nat) : Nat → Option Decimal
  | 0 => ofValue? negative (roundHalfEven value (Nat.pow 10 dropped)) 0
  | scale + 1 =>
      let rounded := roundHalfEven value (Nat.pow 10 dropped)
      if rounded < coefficientBound then
        ofValue? negative rounded (scale + 1)
      else
        fit? negative value (dropped + 1) scale

/-- The sum of two amounts, if it fits. -/
def add? (first second : Decimal) : Option Decimal :=
  if first.coefficient = 0 then
    some second
  else if second.coefficient = 0 then
    some first
  else
    let scale := max first.scale second.scale
    let value := first.coefficientAt scale + second.coefficientAt scale
    fit? (decide (value < 0)) value.natAbs 0 scale

/-- The sum of a list of amounts, added from the left, if every partial sum
fits. -/
def sum? (amounts : List Decimal) : Option Decimal :=
  amounts.foldlM add? zero

@[simp]
theorem sum?_nil : sum? [] = some zero := rfl

@[simp]
theorem add?_zero_left (amount : Decimal) : add? zero amount = some amount := rfl

end Decimal

end MarketStats
