import MarketStats.Decimal.Score
import MarketStats.Proofs.Decimal.Written

/-!
# Scores of zero amounts

A score keeps the sign of a zero, but rankings do not look at it.
-/

namespace MarketStats

namespace Double

theorem ofNat_zero : ofNat 0 = zero := rfl

theorem rank_zero : zero.rank = 0 := by
  decide

theorem isZero_div_zero (divisor : Double) : (zero.div divisor).isZero = true := by
  have numerator : zero.numerator = 0 := by decide
  unfold div
  rw [numerator, Nat.zero_mul, ofQuotient, if_pos rfl, isZero, magnitude_ofMagnitude]
  rfl

end Double

namespace Decimal

theorem unsignedScore_of_coefficient_eq_zero {amount : Decimal} (isZero : amount.coefficient = 0) :
    amount.unsignedScore = Double.zero := by
  unfold unsignedScore
  rw [isZero]
  simp only [Nat.zero_div, Nat.zero_mod, Double.ofNat_zero, Double.isZero_div_zero, if_true,
    ite_self]

/-- An amount ranks the same without the sign of a zero. -/
theorem rank_score_withoutZeroSign (amount : Decimal) :
    amount.withoutZeroSign.score.rank = amount.score.rank := by
  by_cases isZero : amount.coefficient = 0
  · have signless : amount.withoutZeroSign.score = Double.zero := by
      unfold score
      rw [unsignedScore_of_coefficient_eq_zero
        (show amount.withoutZeroSign.coefficient = 0 from isZero)]
      simp [withoutZeroSign, isZero]
    rw [signless, Double.rank_zero, score, unsignedScore_of_coefficient_eq_zero isZero]
    cases amount.negative with
    | true => decide
    | false => decide
  · rw [(withoutZeroSign_eq_self_iff amount).mpr fun equal => absurd equal isZero]

end Decimal

end MarketStats
