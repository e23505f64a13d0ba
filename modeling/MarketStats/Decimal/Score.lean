import MarketStats.Decimal.Basic
import MarketStats.Double.Basic

/-!
# Decimal amounts as scores

Leaderboards rank binary64 numbers.  A whole amount becomes the nearest one.
For any other amount the whole part and the fraction are converted apart,
added, and rounded to as many decimal places as the amount has.
-/

namespace MarketStats

namespace Decimal

def unsignedScore (amount : Decimal) : Double :=
  if amount.scale = 0 then
    Double.ofNat amount.coefficient
  else
    let power := Nat.pow 10 amount.scale
    let whole := Double.ofNat (amount.coefficient / power)
    let fraction := (Double.ofNat (amount.coefficient % power)).div (Double.ofNat power)
    if fraction.isZero then
      whole
    else
      (((whole.add fraction).mul (Double.ofNat power)).round).div (Double.ofNat power)

def score (amount : Decimal) : Double :=
  if amount.negative then amount.unsignedScore.negate else amount.unsignedScore

end Decimal

end MarketStats
