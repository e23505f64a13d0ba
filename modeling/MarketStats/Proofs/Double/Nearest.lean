import MarketStats.Double.Shortest
import Mathlib.Algebra.Order.Field.Power
import Mathlib.Tactic.FieldSimp
import Mathlib.Tactic.Linarith
import Mathlib.Tactic.NormNum
import Mathlib.Tactic.Positivity
import Mathlib.Tactic.Ring

/-!
# The nearest binary64 number

Every quotient in the rounding range of a number is rounded to this number.
The smallest number of a binade is the one exception to the even spacing: the
numbers below it are only half as far apart, and a quotient there is rounded in
their units.
-/

namespace MarketStats

/-- Dividing one of two powers by the other, where one of them is trivial, gives
any power. -/
theorem pow_toNat_div_pow_toNat (base : ℚ) (exponent : ℤ) :
    base ^ exponent.toNat / base ^ (-exponent).toNat = base ^ exponent := by
  rcases Int.le_total 0 exponent with positive | negative
  · rw [Int.toNat_of_nonpos (by omega : -exponent ≤ 0), pow_zero, div_one, ← zpow_natCast,
      Int.toNat_of_nonneg positive]
  · rw [Int.toNat_of_nonpos negative, pow_zero, one_div, ← zpow_natCast,
      Int.toNat_of_nonneg (by omega : 0 ≤ -exponent), zpow_neg, inv_inv]

/-- The nearest whole number to a quotient is the one within half a unit of it,
and the even one of two. -/
theorem roundHalfEven_eq_of_near {value divisor nearest : ℕ} (positive : 0 < divisor)
    (notBelow : (nearest : ℚ) - 1 / 2 ≤ value / divisor)
    (notAbove : (value : ℚ) / divisor ≤ nearest + 1 / 2)
    (tie : (nearest : ℚ) - 1 / 2 = value / divisor ∨ (value : ℚ) / divisor = nearest + 1 / 2 →
      nearest % 2 = 0) :
    roundHalfEven value divisor = nearest := by
  have divisorPos : (0 : ℚ) < divisor := Nat.cast_pos.mpr positive
  rw [le_div_iff₀ divisorPos] at notBelow
  rw [div_le_iff₀ divisorPos] at notAbove
  rw [eq_div_iff divisorPos.ne', div_eq_iff divisorPos.ne'] at tie
  have lower : 2 * nearest * divisor ≤ 2 * value + divisor := by
    have : (2 * nearest * divisor : ℚ) ≤ 2 * value + divisor := by linarith
    exact_mod_cast this
  have upper : 2 * value ≤ 2 * nearest * divisor + divisor := by
    have : (2 * value : ℚ) ≤ 2 * nearest * divisor + divisor := by linarith
    exact_mod_cast this
  have evenTie : 2 * nearest * divisor = 2 * value + divisor ∨
      2 * value = 2 * nearest * divisor + divisor → nearest % 2 = 0 := by
    rintro (atLower | atUpper)
    · have : (2 * nearest * divisor : ℚ) = 2 * value + divisor := by exact_mod_cast atLower
      exact tie (.inl (by linarith))
    · have : (2 * value : ℚ) = 2 * nearest * divisor + divisor := by exact_mod_cast atUpper
      exact tie (.inr (by linarith))
  have split := Nat.div_add_mod value divisor
  have below := Nat.mod_lt value positive
  rw [roundHalfEven]
  generalize value / divisor = quotient at *
  generalize value % divisor = rest at *
  have isNext : nearest = quotient ∨ nearest = quotient + 1 := by
    rcases Nat.lt_or_ge nearest quotient with less | notLess
    · have := Nat.mul_le_mul_left divisor less
      nlinarith
    · rcases Nat.lt_or_ge (quotient + 1) nearest with more | notMore
      · have := Nat.mul_le_mul_left divisor more
        nlinarith
      · omega
  rcases isNext with rfl | rfl
  · have expand : 2 * nearest * divisor = 2 * (divisor * nearest) := by ring
    split
    · rfl
    · omega
  · have expand : 2 * (quotient + 1) * divisor = 2 * (divisor * quotient) + 2 * divisor := by ring
    split
    · omega
    · rfl

namespace Double

/-- The binary exponent of a quotient is the one that it is named for. -/
theorem binaryExponent_spec {numerator denominator : ℕ} (numeratorPos : 0 < numerator)
    (denominatorPos : 0 < denominator) :
    (2 : ℚ) ^ binaryExponent numerator denominator ≤ numerator / denominator ∧
      (numerator : ℚ) / denominator < 2 ^ (binaryExponent numerator denominator + 1) := by
  have numeratorPos' : (0 : ℚ) < numerator := Nat.cast_pos.mpr numeratorPos
  have denominatorPos' : (0 : ℚ) < denominator := Nat.cast_pos.mpr denominatorPos
  have topGe : (2 : ℚ) ^ (numerator.log2 : ℤ) ≤ numerator := by
    rw [zpow_natCast]
    exact_mod_cast Nat.log2_self_le (Nat.ne_of_gt numeratorPos)
  have topLt : (numerator : ℚ) < 2 ^ ((numerator.log2 : ℤ) + 1) := by
    exact_mod_cast (Nat.lt_log2_self : numerator < 2 ^ (numerator.log2 + 1))
  have bottomGe : (2 : ℚ) ^ (denominator.log2 : ℤ) ≤ denominator := by
    rw [zpow_natCast]
    exact_mod_cast Nat.log2_self_le (Nat.ne_of_gt denominatorPos)
  have bottomLt : (denominator : ℚ) < 2 ^ ((denominator.log2 : ℤ) + 1) := by
    exact_mod_cast (Nat.lt_log2_self : denominator < 2 ^ (denominator.log2 + 1))
  unfold binaryExponent
  dsimp only
  generalize guessed : (numerator.log2 : ℤ) - (denominator.log2 : ℤ) = guess
  have power := pow_toNat_div_pow_toNat 2 guess
  have fits : denominator * Nat.pow 2 guess.toNat ≤ numerator * Nat.pow 2 (-guess).toNat ↔
      (2 : ℚ) ^ guess ≤ numerator / denominator := by
    rw [← power, div_le_div_iff₀ (by positivity) denominatorPos', mul_comm]
    exact_mod_cast Iff.rfl
  have least : (2 : ℚ) ^ (guess - 1) ≤ numerator / denominator := by
    rw [le_div_iff₀ denominatorPos']
    calc (2 : ℚ) ^ (guess - 1) * denominator
        ≤ 2 ^ (guess - 1) * 2 ^ ((denominator.log2 : ℤ) + 1) := by gcongr
      _ = 2 ^ (numerator.log2 : ℤ) := by
          rw [← zpow_add₀ two_ne_zero]
          congr 1
          omega
      _ ≤ numerator := topGe
  have most : (numerator : ℚ) / denominator < 2 ^ (guess + 1) := by
    rw [div_lt_iff₀ denominatorPos']
    calc (numerator : ℚ) < 2 ^ ((numerator.log2 : ℤ) + 1) := topLt
      _ = 2 ^ (guess + 1) * 2 ^ (denominator.log2 : ℤ) := by
          rw [← zpow_add₀ two_ne_zero]
          congr 1
          omega
      _ ≤ 2 ^ (guess + 1) * denominator := by gcongr
  split
  · rename_i isExponent
    exact ⟨fits.mp isExponent, most⟩
  · rename_i isLarger
    rw [fits, not_le] at isLarger
    refine ⟨least, ?_⟩
    rw [sub_add_cancel]
    exact isLarger

/-- A quotient is rounded to the nearest multiple of its unit. -/
theorem ofQuotient_eq_of_near {numerator denominator units : ℕ} {unit : ℤ}
    (numeratorPos : 0 < numerator) (denominatorPos : 0 < denominator)
    (isUnit : max (binaryExponent numerator denominator - 52) leastExponent = unit)
    (notBelow : ((units : ℚ) - 1 / 2) * 2 ^ unit ≤ numerator / denominator)
    (notAbove : (numerator : ℚ) / denominator ≤ (units + 1 / 2) * 2 ^ unit)
    (tie : ((units : ℚ) - 1 / 2) * 2 ^ unit = numerator / denominator ∨
      (numerator : ℚ) / denominator = (units + 1 / 2) * 2 ^ unit → units % 2 = 0)
    (negative : Bool) :
    ofQuotient negative numerator denominator =
      ofMagnitude negative ((unit - leastExponent).toNat * fractionUnits + units) := by
  have unitPos : (0 : ℚ) < 2 ^ unit := by positivity
  have scaled : ((numerator * Nat.pow 2 (-unit).toNat : ℕ) : ℚ) /
      (denominator * Nat.pow 2 unit.toNat : ℕ) = numerator / denominator / 2 ^ unit := by
    have power := pow_toNat_div_pow_toNat 2 (-unit)
    rw [neg_neg, zpow_neg] at power
    rw [Nat.pow_eq, Nat.pow_eq, div_eq_mul_inv _ ((2 : ℚ) ^ unit), ← power, div_mul_div_comm]
    push_cast
    rfl
  have rounded : roundHalfEven (numerator * Nat.pow 2 (-unit).toNat)
      (denominator * Nat.pow 2 unit.toNat) = units := by
    apply roundHalfEven_eq_of_near
    · exact Nat.mul_pos denominatorPos (Nat.pow_pos (by decide))
    · rw [scaled, le_div_iff₀ unitPos]
      exact notBelow
    · rw [scaled, div_le_iff₀ unitPos]
      exact notAbove
    · rw [scaled, eq_div_iff unitPos.ne', div_eq_iff unitPos.ne']
      exact tie
  rw [ofQuotient, if_neg (Nat.ne_of_gt numeratorPos)]
  dsimp only
  rw [isUnit, rounded]

variable {number : Double}

theorem leastExponent_le_unitExponent (number : Double) :
    leastExponent ≤ number.unitExponent := by
  rw [unitExponent]
  omega

/-- The position of a number is that of its significand in its binade. -/
theorem magnitude_eq (number : Double) :
    number.magnitude =
      (number.unitExponent - leastExponent).toNat * fractionUnits + number.significand := by
  rw [unitExponent, significand]
  have split := Nat.div_add_mod number.magnitude fractionUnits
  generalize number.magnitude % fractionUnits = fraction at *
  generalize number.magnitude / fractionUnits = field at *
  have difference : (leastExponent + ((field - 1 : ℕ) : ℤ) - leastExponent).toNat = field - 1 := by
    omega
  rw [difference, ← split]
  cases field with
  | zero => simp
  | succ field =>
      simp only [Nat.succ_ne_zero, if_false, Nat.add_sub_cancel]
      ring

theorem significand_lt (number : Double) : number.significand < 2 * fractionUnits := by
  have below := Nat.mod_lt number.magnitude (by decide : 0 < fractionUnits)
  rw [significand]
  split
  · omega
  · omega

/-- Only the numbers with the least exponent have smaller significands. -/
theorem unitExponent_eq_or_le_significand (number : Double) :
    number.unitExponent = leastExponent ∨ fractionUnits ≤ number.significand := by
  rw [unitExponent, significand]
  split
  · rename_i isZero
    rw [isZero]
    exact .inl rfl
  · exact .inr (Nat.le_add_left _ _)

/-- The unit of a quotient is the one whose binade the quotient belongs to. -/
theorem unit_eq_of_bounds {numerator denominator : ℕ} {unit : ℤ}
    (numeratorPos : 0 < numerator) (denominatorPos : 0 < denominator)
    (least : leastExponent ≤ unit)
    (notBelow : unit = leastExponent ∨ (2 : ℚ) ^ (unit + 52) ≤ numerator / denominator)
    (below : (numerator : ℚ) / denominator < 2 ^ (unit + 53)) :
    max (binaryExponent numerator denominator - 52) leastExponent = unit := by
  obtain ⟨exponentLe, ltExponent⟩ := binaryExponent_spec numeratorPos denominatorPos
  have most : binaryExponent numerator denominator < unit + 53 :=
    (zpow_lt_zpow_iff_right₀ one_lt_two).mp (exponentLe.trans_lt below)
  rcases notBelow with isLeast | notBelow
  · omega
  · have atLeast : unit + 52 < binaryExponent numerator denominator + 1 :=
      (zpow_lt_zpow_iff_right₀ one_lt_two).mp (notBelow.trans_lt ltExponent)
    omega

/-- A quotient lies in a range that is closed or open, in its units. -/
def RoundingRange.Contains (range : RoundingRange) (quotient : ℚ) : Prop :=
  if range.closed then
    (range.lower : ℚ) * 2 ^ range.unitExponent ≤ quotient ∧
      quotient ≤ range.upper * 2 ^ range.unitExponent
  else
    (range.lower : ℚ) * 2 ^ range.unitExponent < quotient ∧
      quotient < range.upper * 2 ^ range.unitExponent

/-- The rounding range of a number reaches half a unit above it, and half a unit
or a quarter below it. -/
theorem exists_ends_roundingRange (nonzero : 0 < number.significand) :
    ∃ gap : ℚ, (gap = 1 / 2 ∨ gap = 1 / 4 ∧ number.significand = fractionUnits) ∧
      (number.significand = fractionUnits ∧ leastExponent < number.unitExponent → gap = 1 / 4) ∧
      (number.roundingRange.lower : ℚ) * 2 ^ number.roundingRange.unitExponent =
        (number.significand - gap) * 2 ^ number.unitExponent ∧
      (number.roundingRange.upper : ℚ) * 2 ^ number.roundingRange.unitExponent =
        (number.significand + 1 / 2) * 2 ^ number.unitExponent := by
  have quarter : (2 : ℚ) ^ (number.unitExponent - 2) = 2 ^ number.unitExponent / 4 := by
    rw [zpow_sub₀ two_ne_zero]
    norm_num
  rw [roundingRange]
  generalize number.significand = significand at *
  generalize number.unitExponent = unit at *
  dsimp only
  rw [quarter]
  split
  · rename_i isSmallest
    have fits : 1 ≤ 4 * significand := by omega
    refine ⟨1 / 4, .inr ⟨rfl, isSmallest.1⟩, fun _ => rfl, ?_, ?_⟩
    · push_cast [fits]
      ring
    · push_cast
      ring
  · rename_i isRegular
    have fits : 2 ≤ 4 * significand := by omega
    refine ⟨1 / 2, .inl rfl, fun isSmallest => absurd isSmallest isRegular, ?_, ?_⟩
    · push_cast [fits]
      ring
    · push_cast
      ring

/-- A quotient in the rounding range of a number is at most half a unit away from
it, and below it maybe only a quarter; the ends are out of reach where the
significand is odd. -/
theorem exists_gap_of_contains {quotient : ℚ} (nonzero : 0 < number.significand)
    (inRange : number.roundingRange.Contains quotient) :
    ∃ gap : ℚ, (gap = 1 / 2 ∨ gap = 1 / 4 ∧ number.significand = fractionUnits) ∧
      (number.significand = fractionUnits ∧ leastExponent < number.unitExponent → gap = 1 / 4) ∧
      ((number.significand - gap) * 2 ^ number.unitExponent ≤ quotient ∧
        quotient ≤ (number.significand + 1 / 2) * 2 ^ number.unitExponent) ∧
      (number.significand % 2 ≠ 0 →
        (number.significand - gap) * 2 ^ number.unitExponent < quotient ∧
        quotient < (number.significand + 1 / 2) * 2 ^ number.unitExponent) := by
  obtain ⟨gap, isGap, smallGap, sameLower, sameUpper⟩ := exists_ends_roundingRange nonzero
  rw [RoundingRange.Contains, sameLower, sameUpper] at inRange
  refine ⟨gap, isGap, smallGap, ?_, fun isOdd => ?_⟩
  · split at inRange
    · exact inRange
    · exact ⟨inRange.1.le, inRange.2.le⟩
  · rwa [if_neg] at inRange
    exact fun isEven => isOdd (of_decide_eq_true isEven)

theorem zpow_add_natCast (unit : ℤ) (exponent : ℕ) :
    (2 : ℚ) ^ (unit + exponent) = 2 ^ exponent * 2 ^ unit := by
  rw [zpow_add₀ two_ne_zero, zpow_natCast, mul_comm]

/-- A quotient at most a quarter unit below the smallest number of a binade is
rounded to this number. -/
theorem ofQuotient_of_below_binade {numerator denominator : ℕ} {unit : ℤ}
    (numeratorPos : 0 < numerator) (denominatorPos : 0 < denominator)
    (notLeast : leastExponent < unit)
    (near : ((2 : ℚ) ^ 52 - 1 / 4) * 2 ^ unit ≤ numerator / denominator)
    (below : (numerator : ℚ) / denominator < 2 ^ 52 * 2 ^ unit) (negative : Bool) :
    ofQuotient negative numerator denominator =
      ofMagnitude negative ((unit - leastExponent).toNat * fractionUnits + fractionUnits) := by
  have unitPos : (0 : ℚ) < 2 ^ unit := by positivity
  have halved : (2 : ℚ) ^ (unit - 1) = 2 ^ unit / 2 := by
    rw [zpow_sub_one₀ two_ne_zero]
    ring
  have notBelow : (2 : ℚ) ^ (unit - 1 + (52 : ℕ)) ≤ numerator / denominator := by
    rw [zpow_add_natCast, halved]
    norm_num at near ⊢
    linarith
  have under : (numerator : ℚ) / denominator < 2 ^ (unit - 1 + (53 : ℕ)) := by
    rw [zpow_add_natCast, halved]
    norm_num at below ⊢
    linarith
  have isUnit := unit_eq_of_bounds numeratorPos denominatorPos
    (by omega : leastExponent ≤ unit - 1) (.inr notBelow) under
  -- In the units of the binade below, the smallest number has twice the significand.
  have samePlace : (unit - leastExponent).toNat * fractionUnits + fractionUnits =
      (unit - 1 - leastExponent).toNat * fractionUnits + 2 * fractionUnits := by
    have nextPlace : (unit - leastExponent).toNat = (unit - 1 - leastExponent).toNat + 1 := by
      omega
    rw [nextPlace]
    ring
  have twice : ((2 * fractionUnits : ℕ) : ℚ) = 2 ^ 53 := rfl
  rw [samePlace]
  apply ofQuotient_eq_of_near numeratorPos denominatorPos isUnit
  · rw [twice, halved]
    linarith
  · rw [twice, halved]
    linarith
  · exact fun _ => rfl

/-- A quotient in the rounding range of a number is rounded to the number. -/
theorem ofQuotient_of_contains {numerator denominator : ℕ} (numeratorPos : 0 < numerator)
    (denominatorPos : 0 < denominator) (nonzero : 0 < number.significand)
    (inRange : number.roundingRange.Contains ((numerator : ℚ) / denominator)) (negative : Bool) :
    ofQuotient negative numerator denominator = ofMagnitude negative number.magnitude := by
  obtain ⟨gap, isGap, smallGap, ⟨lower, upper⟩, strict⟩ := exists_gap_of_contains nonzero inRange
  have small := number.significand_lt
  have normal := number.unitExponent_eq_or_le_significand
  have least := number.leastExponent_le_unitExponent
  have unitPos : (0 : ℚ) < 2 ^ number.unitExponent := by positivity
  rw [number.magnitude_eq]
  generalize number.significand = significand at *
  generalize number.unitExponent = unit at *
  by_cases ownUnit : unit = leastExponent ∨
      (2 : ℚ) ^ (unit + (52 : ℕ)) ≤ numerator / denominator
  · have below : (numerator : ℚ) / denominator < 2 ^ (unit + (53 : ℕ)) := by
      rw [zpow_add_natCast]
      refine upper.trans_lt (mul_lt_mul_of_pos_right ?_ unitPos)
      have : (significand : ℚ) + 1 ≤ 2 ^ 53 := by exact_mod_cast small
      linarith
    have half : ((significand : ℚ) - 1 / 2) * 2 ^ unit ≤ (significand - gap) * 2 ^ unit := by
      refine mul_le_mul_of_nonneg_right ?_ unitPos.le
      rcases isGap with rfl | ⟨rfl, -⟩
      · exact le_rfl
      · linarith
    refine ofQuotient_eq_of_near numeratorPos denominatorPos
      (unit_eq_of_bounds numeratorPos denominatorPos least ownUnit below) (half.trans lower) upper
      ?_ negative
    intro tie
    by_contra isOdd
    obtain ⟨above, under⟩ := strict isOdd
    rcases tie with atLower | atUpper
    · exact absurd atLower (half.trans_lt above).ne
    · exact absurd atUpper under.ne
  · obtain ⟨notLeast, below⟩ := not_or.mp ownUnit
    rw [zpow_add_natCast, not_le] at below
    have isSmallest : significand = fractionUnits := by
      have : (significand : ℚ) - gap < 2 ^ 52 :=
        lt_of_mul_lt_mul_right (lower.trans_lt below) unitPos.le
      have notMore : (significand : ℚ) < 2 ^ 52 + 1 := by
        rcases isGap with rfl | ⟨rfl, -⟩ <;> linarith
      have : significand < 2 ^ 52 + 1 := by exact_mod_cast notMore
      have : fractionUnits = 2 ^ 52 := rfl
      omega
    obtain rfl := smallGap ⟨isSmallest, by omega⟩
    have isPower : (significand : ℚ) = 2 ^ 52 := by
      rw [isSmallest]
      rfl
    rw [isPower] at lower
    rw [isSmallest]
    exact ofQuotient_of_below_binade numeratorPos denominatorPos (by omega) lower below negative

end Double

end MarketStats
