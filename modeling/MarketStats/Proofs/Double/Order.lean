import MarketStats.Proofs.Double.Nearest

/-!
# The order of binary64 numbers

The position of a number in the numerical order is read off its bits.  It grows
with the value that the number stands for: among positive numbers a larger
position means a larger significand in the same binade, or a higher binade.
-/

namespace MarketStats

namespace Double

/-- The absolute value that a finite number stands for. -/
def absoluteValue (number : Double) : ℚ :=
  number.significand * 2 ^ number.unitExponent

/-- The value that a finite number stands for. -/
def value (number : Double) : ℚ :=
  if number.isNegative then -number.absoluteValue else number.absoluteValue

variable {first second : Double}

theorem absoluteValue_nonneg (number : Double) : 0 ≤ number.absoluteValue := by
  unfold absoluteValue
  positivity

theorem absoluteValue_eq_of_magnitude_eq (same : first.magnitude = second.magnitude) :
    first.absoluteValue = second.absoluteValue := by
  simp only [absoluteValue, significand, unitExponent, same]

theorem absoluteValue_lt_of_magnitude_lt (less : first.magnitude < second.magnitude) :
    first.absoluteValue < second.absoluteValue := by
  have firstPosition := first.magnitude_eq
  have secondPosition := second.magnitude_eq
  have firstBound := first.significand_lt
  have secondBound := second.significand_lt
  have firstLeast := leastExponent_le_unitExponent first
  have secondLeast := leastExponent_le_unitExponent second
  unfold absoluteValue
  rcases lt_trichotomy first.unitExponent second.unitExponent with lower | sameBinade | higher
  · -- The significand of the larger number has its leading bit.
    have full : fractionUnits ≤ second.significand :=
      second.unitExponent_eq_or_le_significand.resolve_left (by omega)
    calc (first.significand : ℚ) * 2 ^ first.unitExponent
        < (2 * fractionUnits : ℕ) * 2 ^ first.unitExponent := by gcongr
      _ = fractionUnits * 2 ^ (first.unitExponent + 1) := by
          rw [zpow_add_one₀ two_ne_zero]
          push_cast
          ring
      _ ≤ second.significand * 2 ^ second.unitExponent := by
          have nextBinade : first.unitExponent + 1 ≤ second.unitExponent := lower
          gcongr
          exact one_le_two
  · rw [sameBinade] at firstPosition ⊢
    have smaller : first.significand < second.significand := by omega
    gcongr
  · exfalso
    have full : fractionUnits ≤ first.significand :=
      first.unitExponent_eq_or_le_significand.resolve_left (by omega)
    have step : (second.unitExponent - leastExponent).toNat + 1 ≤
        (first.unitExponent - leastExponent).toNat := by omega
    have scaled := Nat.mul_le_mul_right fractionUnits step
    rw [Nat.succ_mul] at scaled
    omega

theorem absoluteValue_pos {number : Double} (positive : 0 < number.magnitude) :
    0 < number.absoluteValue := by
  have zeroPosition : zero.magnitude = 0 := by decide
  exact zero.absoluteValue_nonneg.trans_lt
    (absoluteValue_lt_of_magnitude_lt (zeroPosition ▸ positive))

theorem value_lt_of_rank_lt (less : first.rank < second.rank) : first.value < second.value := by
  have firstNonneg := first.absoluteValue_nonneg
  have secondNonneg := second.absoluteValue_nonneg
  unfold rank at less
  unfold value
  cases firstSign : first.isNegative with
  | false =>
      cases secondSign : second.isNegative with
      | false =>
          simp only [firstSign, secondSign, Bool.false_eq_true, if_false] at less ⊢
          exact absoluteValue_lt_of_magnitude_lt (by omega)
      | true =>
          simp only [firstSign, secondSign, Bool.false_eq_true, if_false, if_true] at less
          omega
  | true =>
      cases secondSign : second.isNegative with
      | false =>
          simp only [firstSign, secondSign, Bool.false_eq_true, if_false, if_true] at less ⊢
          rcases Nat.eq_zero_or_pos first.magnitude with isZero | positive
          · have secondPos : 0 < second.absoluteValue := absoluteValue_pos (by omega)
            linarith
          · have firstPos := absoluteValue_pos positive
            linarith
      | true =>
          simp only [firstSign, secondSign, if_true] at less ⊢
          have smaller : second.absoluteValue < first.absoluteValue :=
            absoluteValue_lt_of_magnitude_lt (by omega)
          linarith

theorem natAbs_rank (number : Double) : number.rank.natAbs = number.magnitude := by
  unfold rank
  split
  · rw [Int.natAbs_neg, Int.natAbs_natCast]
  · exact Int.natAbs_natCast _

theorem value_of_magnitude_eq_zero {number : Double} (isZero : number.magnitude = 0) :
    number.value = 0 := by
  have zeroPosition : zero.magnitude = 0 := by decide
  have zeroValue : zero.absoluteValue = 0 := by
    simp [absoluteValue, show zero.significand = 0 by decide]
  have noValue : number.absoluteValue = 0 := by
    rw [absoluteValue_eq_of_magnitude_eq (isZero.trans zeroPosition.symm), zeroValue]
  simp [value, noValue]

theorem value_eq_of_rank_eq (same : first.rank = second.rank) : first.value = second.value := by
  have sameMagnitude : first.magnitude = second.magnitude := by
    rw [← natAbs_rank, same, natAbs_rank]
  by_cases sameSign : first.isNegative = second.isNegative
  · rw [value, value, sameSign, absoluteValue_eq_of_magnitude_eq sameMagnitude]
  · -- Numbers of different signs share a position only where both are zero.
    have isZero : second.magnitude = 0 := by
      unfold rank at same
      rw [Bool.eq_not.mpr sameSign, sameMagnitude] at same
      cases sign : second.isNegative <;> simp [sign] at same <;> omega
    rw [value_of_magnitude_eq_zero isZero, value_of_magnitude_eq_zero (sameMagnitude.trans isZero)]

theorem rank_lt_iff : first.rank < second.rank ↔ first.value < second.value := by
  constructor
  · exact value_lt_of_rank_lt
  · intro less
    rcases Int.lt_trichotomy first.rank second.rank with lower | same | higher
    · exact lower
    · exact absurd less (value_eq_of_rank_eq same).not_lt
    · exact absurd less (value_lt_of_rank_lt higher).not_gt

theorem rank_eq_iff : first.rank = second.rank ↔ first.value = second.value := by
  constructor
  · exact value_eq_of_rank_eq
  · intro same
    rcases Int.lt_trichotomy first.rank second.rank with lower | sameRank | higher
    · exact absurd same (value_lt_of_rank_lt lower).ne
    · exact sameRank
    · exact absurd same (value_lt_of_rank_lt higher).ne'

end Double

end MarketStats
