import MarketStats.Proofs.Double.Nearest
import MarketStats.Proofs.Double.Reader
import Mathlib.Data.Nat.Cast.Order.Field

/-!
# Shortest digits lie in the rounding range

Seventeen digits are enough to tell a binary64 number from all others: the grid
of the multiples that have so many digits is finer than the rounding range.  The
search for the shortest digits therefore finds some, and they are rounded to the
number that they were found for.
-/

namespace MarketStats

namespace Double

/-- What a decimal number stands for. -/
def Scientific.value (number : Scientific) : ℚ :=
  number.digits * 10 ^ number.exponent

theorem Scientific.value_trimmed (number : Scientific) : number.trimmed.value = number.value := by
  induction number using Scientific.trimmed.induct with
  | case1 number divisible ih =>
      rw [trimmed, dif_pos divisible, ih, value, value, zpow_add_one₀ (by norm_num)]
      have whole : ((number.digits / 10 : ℕ) : ℚ) * 10 = number.digits := by
        exact_mod_cast Nat.div_mul_cancel (Nat.dvd_of_mod_eq_zero divisible.1)
      rw [← whole]
      ring
  | case2 number notDivisible => rw [trimmed, dif_neg notDivisible]

/-- The components of a scaled quotient are those of a product with a power. -/
theorem scaleQuotient_div (numerator denominator : ℕ) (exponent : ℤ) (base : ℕ) :
    ((scaleQuotient numerator denominator exponent base).1 : ℚ) /
        (scaleQuotient numerator denominator exponent base).2 =
      numerator / denominator * (base : ℚ) ^ exponent := by
  rw [scaleQuotient, Nat.pow_eq, Nat.pow_eq, ← pow_toNat_div_pow_toNat, div_mul_div_comm]
  push_cast
  rfl

theorem scaleQuotient_pos {denominator base : ℕ} (denominatorPos : 0 < denominator)
    (basePos : 0 < base) (numerator : ℕ) (exponent : ℤ) :
    (0 : ℚ) < (scaleQuotient numerator denominator exponent base).2 :=
  Nat.cast_pos.mpr (Nat.mul_pos denominatorPos (Nat.pow_pos basePos))

theorem RoundingRange.contains_iff {range : RoundingRange} {candidate : ℕ} {exponent : ℤ} :
    range.contains candidate exponent = true ↔ range.Contains (candidate * 10 ^ exponent) := by
  have decimal := scaleQuotient_div candidate 1 exponent 10
  have decimalPos := scaleQuotient_pos one_pos (by decide : 0 < 10) candidate exponent
  have binary := scaleQuotient_div 1 1 range.unitExponent 2
  have binaryPos := scaleQuotient_pos one_pos (by decide : 0 < 2) 1 range.unitExponent
  rw [contains, Contains]
  generalize scaleQuotient candidate 1 exponent 10 = scaled at *
  generalize scaleQuotient 1 1 range.unitExponent 2 = unit at *
  obtain ⟨decimalTop, decimalBottom⟩ := scaled
  obtain ⟨unitTop, unitBottom⟩ := unit
  dsimp only at *
  rw [Nat.cast_one, div_one] at decimal
  rw [Nat.cast_one, div_one, one_mul] at binary
  push_cast at decimal binary
  rw [← decimal, ← binary]
  have atLeast : ∀ bound : ℕ, bound * (unitTop * decimalBottom) ≤ decimalTop * unitBottom ↔
      (bound : ℚ) * (unitTop / unitBottom) ≤ decimalTop / decimalBottom := by
    intro bound
    rw [← mul_div_assoc, div_le_div_iff₀ binaryPos decimalPos, mul_assoc]
    exact_mod_cast Iff.rfl
  have atMost : ∀ bound : ℕ, decimalTop * unitBottom ≤ bound * (unitTop * decimalBottom) ↔
      (decimalTop : ℚ) / decimalBottom ≤ bound * (unitTop / unitBottom) := by
    intro bound
    rw [← mul_div_assoc, div_le_div_iff₀ decimalPos binaryPos, mul_assoc]
    exact_mod_cast Iff.rfl
  split
  · rw [Bool.and_eq_true, decide_eq_true_eq, decide_eq_true_eq, atLeast, atMost]
  · rw [Bool.and_eq_true, decide_eq_true_eq, decide_eq_true_eq, ← not_le, ← not_le, atLeast, atMost,
      not_le, not_le]

/-- Only candidates in the range are found. -/
theorem RoundingRange.contains_of_onGrid? {range : RoundingRange} {rule : TieRule} {exponent : ℤ}
    {found : Scientific} (isFound : range.onGrid? rule exponent = some found) :
    range.Contains found.value := by
  rw [onGrid?] at isFound
  dsimp only at isFound
  split at isFound
  · rename_i inRange
    obtain rfl := Option.some.inj isFound
    exact contains_iff.mp inRange
  · obtain ⟨inRange, isOther⟩ := Option.ite_none_right_eq_some.mp isFound
    obtain rfl := Option.some.inj isOther
    exact contains_iff.mp inRange

/-- The search finds a candidate in the range if one of the grids has one. -/
theorem RoundingRange.contains_search {range : RoundingRange} {rule : TieRule} {leading : ℤ}
    {count remaining : ℕ}
    (hit : ∃ digits < remaining, (range.onGrid? rule (leading - (count + digits : ℕ))).isSome) :
    range.Contains (range.search rule leading count remaining).value := by
  induction remaining generalizing count with
  | zero =>
      obtain ⟨digits, few, -⟩ := hit
      exact absurd few (Nat.not_lt_zero digits)
  | succ remaining ih =>
      rw [search]
      cases isFound : range.onGrid? rule (leading - count) with
      | some found => exact contains_of_onGrid? isFound
      | none =>
          refine ih ?_
          obtain ⟨digits, few, isHit⟩ := hit
          cases digits with
          | zero =>
              rw [Nat.add_zero, isFound] at isHit
              exact nomatch isHit
          | succ digits =>
              refine ⟨digits, Nat.lt_of_succ_lt_succ few, ?_⟩
              rwa [Nat.add_right_comm]

theorem pow_length_toDigits_le {value : ℕ} (positive : 0 < value) :
    10 ^ ((Nat.toDigits 10 value).length - 1) ≤ value := by
  by_contra tooFew
  rw [not_le] at tooFew
  rcases Nat.eq_zero_or_pos ((Nat.toDigits 10 value).length - 1) with isOne | more
  · rw [isOne, pow_zero] at tooFew
    omega
  · have fewer := (Nat.length_toDigits_le_iff (by decide) more).mpr tooFew
    omega

theorem lt_pow_length_toDigits (value : ℕ) : value < 10 ^ (Nat.toDigits 10 value).length :=
  (Nat.length_toDigits_le_iff (by decide) Nat.length_toDigits_pos).mp le_rfl

/-- A quotient has the digits in front of the point that are counted, or there
are no more zeros behind the point than are counted. -/
theorem pow_decimalExponent_le {numerator denominator : ℕ} (numeratorPos : 0 < numerator)
    (denominatorPos : 0 < denominator) :
    (10 : ℚ) ^ (decimalExponent numerator denominator - 1) ≤ numerator / denominator := by
  have denominatorPos' : (0 : ℚ) < denominator := Nat.cast_pos.mpr denominatorPos
  rw [decimalExponent]
  split
  · rename_i isLarge
    have digits := pow_length_toDigits_le (Nat.div_pos isLarge denominatorPos)
    have some := Nat.length_toDigits_pos (b := 10) (n := numerator / denominator)
    generalize (Nat.toDigits 10 (numerator / denominator)).length = length at *
    have exponent : (length : ℤ) - 1 = (length - 1 : ℕ) := by omega
    rw [exponent, zpow_natCast]
    exact le_trans (by exact_mod_cast digits) Nat.cast_div_le
  · dsimp only
    have digits := lt_pow_length_toDigits ((denominator - 1) / numerator)
    generalize (Nat.toDigits 10 ((denominator - 1) / numerator)).length = length at *
    have exponent : 1 - (length : ℤ) - 1 = -(length : ℤ) := by omega
    rw [Nat.div_lt_iff_lt_mul numeratorPos] at digits
    have enough : denominator ≤ 10 ^ length * numerator := by omega
    rw [exponent, zpow_neg, zpow_natCast, inv_le_iff_one_le_mul₀' (by positivity), ← mul_div_assoc,
      one_le_div denominatorPos']
    exact_mod_cast enough

variable {number : Double}

/-- What is nearer to a number than the gap around it lies in its rounding
range. -/
theorem contains_of_near (nonzero : 0 < number.significand) {quotient distance : ℚ}
    (near : |quotient - number.significand * 2 ^ number.unitExponent| ≤
      distance * 2 ^ number.unitExponent)
    (small : distance < 1 / 2) (smaller : number.significand = fractionUnits → distance < 1 / 4) :
    number.roundingRange.Contains quotient := by
  obtain ⟨gap, isGap, -, sameLower, sameUpper⟩ := exists_ends_roundingRange nonzero
  have unitPos : (0 : ℚ) < 2 ^ number.unitExponent := by positivity
  have insideGap : distance < gap := by
    rcases isGap with rfl | ⟨rfl, isSmallest⟩
    · exact small
    · exact smaller isSmallest
  have belowGap := mul_lt_mul_of_pos_right insideGap unitPos
  have belowHalf := mul_lt_mul_of_pos_right small unitPos
  obtain ⟨notBelow, notAbove⟩ := abs_le.mp near
  have above : (number.significand - gap) * 2 ^ number.unitExponent < quotient := by linarith
  have below : quotient < (number.significand + 1 / 2) * 2 ^ number.unitExponent := by linarith
  rw [RoundingRange.Contains, sameLower, sameUpper]
  split
  · exact ⟨above.le, below.le⟩
  · exact ⟨above, below⟩

theorem abs_roundHalfEven_sub_le (value : ℕ) {divisor : ℕ} (positive : 0 < divisor) :
    |(roundHalfEven value divisor : ℚ) - value / divisor| ≤ 1 / 2 := by
  have divisorPos : (0 : ℚ) < divisor := Nat.cast_pos.mpr positive
  obtain ⟨notBelow, notAbove⟩ := roundHalfEven_near value divisor positive
  have lower : (2 * value : ℚ) ≤ 2 * (roundHalfEven value divisor * divisor) + divisor := by
    exact_mod_cast notBelow
  have upper : (2 * (roundHalfEven value divisor * divisor) : ℚ) ≤ 2 * value + divisor := by
    exact_mod_cast notAbove
  have product : (value : ℚ) = value / divisor * divisor := (div_mul_cancel₀ _ divisorPos.ne').symm
  generalize (value : ℚ) / divisor = quotient at *
  rw [product] at lower upper
  refine abs_le.mpr ⟨?_, ?_⟩
  · have : quotient * divisor ≤ (roundHalfEven value divisor + 1 / 2) * divisor := by linarith
    linarith [le_of_mul_le_mul_right this divisorPos]
  · have : roundHalfEven value divisor * (divisor : ℚ) ≤ (quotient + 1 / 2) * divisor := by linarith
    linarith [le_of_mul_le_mul_right this divisorPos]

theorem middle_roundingRange (number : Double) :
    (number.roundingRange.middle : ℚ) * 2 ^ number.roundingRange.unitExponent =
      number.significand * 2 ^ number.unitExponent := by
  rw [roundingRange]
  dsimp only
  rw [zpow_sub₀ two_ne_zero]
  push_cast
  ring

/-- A grid has a candidate if half a step of it is less than the gap around the
number. -/
theorem isSome_onGrid? (nonzero : 0 < number.significand) {exponent : ℤ} (distance : ℚ)
    (fine : (10 : ℚ) ^ exponent / 2 ≤ distance * 2 ^ number.unitExponent)
    (small : distance < 1 / 2) (smaller : number.significand = fractionUnits → distance < 1 / 4) :
    (number.roundingRange.onGrid? .toEven exponent).isSome = true := by
  have stepPos : (0 : ℚ) < 10 ^ exponent := by positivity
  have binary := scaleQuotient_div 1 1 number.roundingRange.unitExponent 2
  have binaryPos :=
    scaleQuotient_pos one_pos (by decide : 0 < 2) 1 number.roundingRange.unitExponent
  have grid := scaleQuotient_div 1 1 exponent 10
  have gridPos := scaleQuotient_pos one_pos (by decide : 0 < 10) 1 exponent
  have middle := number.middle_roundingRange
  rw [RoundingRange.onGrid?]
  generalize scaleQuotient 1 1 number.roundingRange.unitExponent 2 = unit at *
  generalize scaleQuotient 1 1 exponent 10 = step at *
  obtain ⟨unitTop, unitBottom⟩ := unit
  obtain ⟨stepTop, stepBottom⟩ := step
  dsimp only at *
  push_cast at binary grid
  rw [div_one, one_mul] at binary grid
  have stepTopPos : (0 : ℚ) < stepTop := by
    rw [div_eq_iff gridPos.ne'] at grid
    rw [grid]
    positivity
  have inGrid : ((number.roundingRange.middle * unitTop * stepBottom : ℕ) : ℚ) /
      (unitBottom * stepTop : ℕ) =
        number.significand * 2 ^ number.unitExponent / 10 ^ exponent := by
    rw [← middle, ← binary, ← grid]
    push_cast
    field_simp
  have bottomPos : 0 < unitBottom * stepTop := by
    have : (0 : ℚ) < unitBottom * stepTop := mul_pos binaryPos stepTopPos
    exact_mod_cast this
  have nearest := abs_roundHalfEven_sub_le (number.roundingRange.middle * unitTop * stepBottom)
    bottomPos
  rw [inGrid] at nearest
  rw [if_pos]
  · rfl
  refine RoundingRange.contains_iff.mpr (contains_of_near nonzero ?_ small smaller)
  rw [TieRule.round]
  generalize roundHalfEven (number.roundingRange.middle * unitTop * stepBottom)
    (unitBottom * stepTop) = candidate at *
  generalize (number.significand : ℚ) * 2 ^ number.unitExponent = exact at *
  calc |(candidate : ℚ) * 10 ^ exponent - exact|
      = |(candidate : ℚ) - exact / 10 ^ exponent| * 10 ^ exponent := by
        rw [← abs_of_pos stepPos, ← abs_mul, abs_of_pos stepPos, sub_mul,
          div_mul_cancel₀ _ stepPos.ne']
    _ ≤ 1 / 2 * 10 ^ exponent := mul_le_mul_of_nonneg_right nearest stepPos.le
    _ = 10 ^ exponent / 2 := by ring
    _ ≤ distance * 2 ^ number.unitExponent := fine

theorem numerator_div_denominator (number : Double) :
    (number.numerator : ℚ) / number.denominator =
      number.significand * 2 ^ number.unitExponent := by
  rw [numerator, denominator, Nat.pow_eq, Nat.pow_eq, ← pow_toNat_div_pow_toNat, mul_div_assoc']
  push_cast
  rfl

theorem numerator_pos (nonzero : 0 < number.significand) : 0 < number.numerator :=
  Nat.mul_pos nonzero (Nat.pow_pos (by decide))

theorem denominator_pos (number : Double) : 0 < number.denominator :=
  Nat.pow_pos (by decide)

/-- Seventeen digits are enough: there are fewer significands than steps of such
a grid. -/
theorem isSome_onGrid?_seventeen (nonzero : 0 < number.significand) :
    (number.roundingRange.onGrid? .toEven
      (decimalExponent number.numerator number.denominator - 17)).isSome = true := by
  have unitPos : (0 : ℚ) < 2 ^ number.unitExponent := by positivity
  have leading := pow_decimalExponent_le (numerator_pos nonzero) number.denominator_pos
  rw [number.numerator_div_denominator] at leading
  generalize decimalExponent number.numerator number.denominator = digits at *
  have step : (10 : ℚ) ^ (digits - 17) = 10 ^ (digits - 1) / 10 ^ 16 := by
    have split : digits - 17 = digits - 1 - 16 := by omega
    rw [split, zpow_sub₀ (by norm_num)]
    rfl
  have bounded : (number.significand : ℚ) < 2 ^ 53 := by exact_mod_cast number.significand_lt
  refine isSome_onGrid? nonzero (number.significand / (2 * 10 ^ 16)) ?_ ?_ ?_
  · rw [step, div_mul_eq_mul_div, div_div, mul_comm (2 : ℚ)]
    gcongr
  · linarith
  · intro isSmallest
    have isPower : (number.significand : ℚ) = 2 ^ 52 := by
      rw [isSmallest]
      rfl
    rw [isPower]
    norm_num

theorem isZero_eq_false (nonzero : 0 < number.significand) : number.isZero = false := by
  have position := number.magnitude_eq
  rw [isZero, beq_eq_false_iff_ne]
  omega

theorem contains_shortest (nonzero : 0 < number.significand) :
    number.roundingRange.Contains (number.shortest .toEven).value := by
  rw [shortest, isZero_eq_false nonzero, if_neg (by decide)]
  dsimp only
  rw [Scientific.value_trimmed]
  exact RoundingRange.contains_search ⟨16, by decide, isSome_onGrid?_seventeen nonzero⟩

theorem ofMagnitude_magnitude (finite : number.isFinite = true) :
    ofMagnitude number.isNegative number.magnitude = number := by
  have sameMagnitude : min number.magnitude infiniteMagnitude = number.magnitude :=
    Nat.min_eq_left (Nat.le_of_lt (of_decide_eq_true finite))
  have bounded := number.bits.toNat_lt
  have together : (if number.isNegative = true then signWeight else 0) + number.magnitude =
      number.bits.toNat := by
    rw [isNegative, magnitude, signWeight]
    simp only [decide_eq_true_eq]
    split
    · omega
    · omega
  rw [ofMagnitude, sameMagnitude, together, UInt64.ofNat_toNat]

theorem value_eq_div (number : Scientific) :
    number.value = ((number.digits * Nat.pow 10 number.exponent.toNat : ℕ) : ℚ) /
      (Nat.pow 10 (-number.exponent).toNat : ℕ) := by
  rw [Scientific.value, ← pow_toNat_div_pow_toNat, Nat.pow_eq, Nat.pow_eq, mul_div_assoc']
  push_cast
  rfl

theorem digits_eq_zero_of_value_eq_zero {number : Scientific} (isZero : number.value = 0) :
    number.digits = 0 := by
  rcases mul_eq_zero.mp isZero with noDigits | noPower
  · exact_mod_cast noDigits
  · exact absurd noPower (by positivity)

theorem not_contains_zero (nonzero : 0 < number.significand) :
    ¬number.roundingRange.Contains 0 := by
  obtain ⟨gap, isGap, -, sameLower, -⟩ := exists_ends_roundingRange nonzero
  have unitPos : (0 : ℚ) < 2 ^ number.unitExponent := by positivity
  have atLeastOne : (1 : ℚ) ≤ number.significand := by exact_mod_cast nonzero
  have positive : 0 < (number.significand - gap) * 2 ^ number.unitExponent := by
    refine mul_pos ?_ unitPos
    rcases isGap with rfl | ⟨rfl, -⟩ <;> linarith
  rw [RoundingRange.Contains, sameLower]
  split
  · exact fun inRange => absurd inRange.1 (not_le.mpr positive)
  · exact fun inRange => absurd inRange.1 (not_lt.mpr positive.le)

theorem magnitude_eq_zero (isZero : number.significand = 0) : number.magnitude = 0 := by
  rcases number.unitExponent_eq_or_le_significand with isLeast | notSmall
  · rw [number.magnitude_eq, isLeast, isZero, Int.sub_self]
    rfl
  · rw [isZero] at notSmall
    exact absurd notSmall (by decide)

/-- A finite number is the nearest one to its shortest digits, and to all others
that stand for the same. -/
theorem ofScientific_eq_of_value_eq (finite : number.isFinite = true) {written : Scientific}
    (same : written.value = (number.shortest .toEven).value) :
    ofScientific number.isNegative written = number := by
  rw [ofScientific]
  refine Eq.trans ?_ (ofMagnitude_magnitude finite)
  rcases Nat.eq_zero_or_pos number.significand with isZero | nonzero
  · have nothing : number.magnitude = 0 := magnitude_eq_zero isZero
    have isZero : number.isZero = true := beq_iff_eq.mpr nothing
    have noDigits : written.digits = 0 := by
      apply digits_eq_zero_of_value_eq_zero
      rw [same, shortest, if_pos isZero, Scientific.value, Nat.cast_zero, zero_mul]
    rw [noDigits, nothing, Nat.zero_mul, ofQuotient, if_pos rfl]
  · have inRange := contains_shortest nonzero
    rw [← same] at inRange
    have some : 0 < written.digits := by
      refine Nat.pos_of_ne_zero fun noDigits => not_contains_zero nonzero ?_
      rw [Scientific.value, noDigits, Nat.cast_zero, zero_mul] at inRange
      exact inRange
    rw [value_eq_div] at inRange
    exact ofQuotient_of_contains (Nat.mul_pos some (Nat.pow_pos (by decide)))
      (Nat.pow_pos (by decide)) nonzero inRange number.isNegative

end Double

end MarketStats
