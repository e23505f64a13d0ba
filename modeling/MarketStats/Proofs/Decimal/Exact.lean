import MarketStats.Decimal.Sum
import Mathlib.Algebra.Order.Ring.Int

/-!
# Sums without rounding

A sum of amounts is exact as long as every partial sum is an amount itself.
Then it does not matter at which scale a partial sum is written, and when its
coefficient is too large at one scale, then only zeros are rounded away.  It is
enough that every partial sum has a coefficient at the largest of the scales.
-/

namespace MarketStats

namespace Decimal

/-- The value of an amount in units of the smallest fraction. -/
def units (amount : Decimal) : Int :=
  amount.coefficientAt maxScale

def largestScale (amounts : List Decimal) : Nat :=
  amounts.foldr (fun amount largest => max amount.scale largest) 0

def sumAt (scale : Nat) (amounts : List Decimal) : Int :=
  (amounts.map fun amount => amount.coefficientAt scale).sum

/-- Every partial sum of some amounts has a coefficient at the largest scale. -/
def HasExactSums (amounts : List Decimal) : Prop :=
  ∀ count ≤ amounts.length,
    (sumAt (largestScale amounts) (amounts.take count)).natAbs < coefficientBound

instance (amounts : List Decimal) : Decidable (HasExactSums amounts) :=
  inferInstanceAs (Decidable (∀ count ≤ _, _))

/-- The sum of amounts in units of the smallest fraction. -/
def sumUnits (amounts : List Decimal) : Int :=
  (amounts.map units).sum

/-- Some amount has so many units of the smallest fraction. -/
def IsAmount (value : Int) : Prop :=
  ∃ amount : Decimal, amount.units = value

/-- Every partial sum of some amounts is an amount. -/
def HasAmountSums (amounts : List Decimal) : Prop :=
  ∀ part, part <+: amounts → IsAmount (sumUnits part)

theorem scale_le_largestScale {amount : Decimal} {amounts : List Decimal}
    (member : amount ∈ amounts) : amount.scale ≤ largestScale amounts := by
  induction amounts with
  | nil => exact nomatch member
  | cons first rest ih =>
      change amount.scale ≤ max first.scale (largestScale rest)
      rcases List.mem_cons.mp member with rfl | inRest
      · exact Nat.le_max_left _ _
      · exact Nat.le_trans (ih inRest) (Nat.le_max_right _ _)

theorem largestScale_le_maxScale (amounts : List Decimal) : largestScale amounts ≤ maxScale := by
  induction amounts with
  | nil => exact Nat.zero_le _
  | cons first rest ih => exact Nat.max_le.mpr ⟨first.scale_le, ih⟩

theorem coefficientAt_mul (amount : Decimal) {scale larger : Nat} (own : amount.scale ≤ scale)
    (ordered : scale ≤ larger) :
    amount.coefficientAt larger =
      amount.coefficientAt scale * (Nat.pow 10 (larger - scale) : Nat) := by
  have split : larger - amount.scale = (scale - amount.scale) + (larger - scale) := by omega
  have powers : Nat.pow 10 (larger - amount.scale) =
      Nat.pow 10 (scale - amount.scale) * Nat.pow 10 (larger - scale) := by
    rw [split]
    exact Nat.pow_add ..
  rw [coefficientAt, coefficientAt, powers, Int.natCast_mul, Int.mul_assoc]

theorem coefficientAt_of_coefficient_eq_zero {amount : Decimal} (isZero : amount.coefficient = 0)
    (scale : Nat) : amount.coefficientAt scale = 0 := by
  rw [coefficientAt, signedCoefficient, isZero]
  simp

/-- A whole number of units of some scale is an amount if it fits. -/
theorem exists_ofValue?_eq {value : Int} {scale : Nat} (fits : value.natAbs < coefficientBound)
    (ofScale : scale ≤ maxScale) :
    ∃ amount, ofValue? (decide (value < 0)) value.natAbs scale = some amount ∧
      amount.scale = scale ∧ amount.coefficientAt scale = value := by
  refine ⟨_, dif_pos ⟨fits, ofScale⟩, rfl, ?_⟩
  have one : Nat.pow 10 (scale - scale) = 1 := by rw [Nat.sub_self]
  rw [coefficientAt, one, Int.natCast_one, Int.mul_one, signedCoefficient]
  dsimp only
  split
  · rename_i negative
    have below : value < 0 := decide_eq_true_eq.mp (Bool.and_eq_true_iff.mp negative).1
    omega
  · rename_i notNegative
    simp only [Bool.and_eq_true, decide_eq_true_eq, bne_iff_ne] at notNegative
    omega

theorem units_of_coefficient_eq_zero {amount : Decimal} (isZero : amount.coefficient = 0) :
    amount.units = 0 :=
  coefficientAt_of_coefficient_eq_zero isZero maxScale

/-- The same value at two scales. -/
theorem mul_pow_sub_eq_iff {first second firstScale secondScale : Nat}
    (firstOf : firstScale ≤ maxScale) (secondOf : secondScale ≤ maxScale) :
    first * 10 ^ (maxScale - firstScale) = second * 10 ^ (maxScale - secondScale) ↔
      first * 10 ^ secondScale = second * 10 ^ firstScale := by
  have expand (value other : Nat) {scale : Nat} (ofScale : scale ≤ maxScale) :
      value * 10 ^ (maxScale - scale) * (10 ^ scale * 10 ^ other) =
        value * 10 ^ other * 10 ^ maxScale := by
    rw [← Nat.mul_assoc, Nat.mul_assoc value, ← Nat.pow_add, Nat.sub_add_cancel ofScale,
      Nat.mul_right_comm]
  have firstExpanded := expand first secondScale firstOf
  have secondExpanded := expand second firstScale secondOf
  rw [Nat.mul_comm (10 ^ secondScale)] at secondExpanded
  constructor
  · intro same
    apply Nat.eq_of_mul_eq_mul_right (Nat.pow_pos (n := maxScale) (by decide : 0 < 10))
    rw [← firstExpanded, same, secondExpanded]
  · intro same
    apply Nat.eq_of_mul_eq_mul_right
      (Nat.mul_pos (Nat.pow_pos (n := firstScale) (by decide : 0 < 10))
        (Nat.pow_pos (n := secondScale) (by decide : 0 < 10)))
    rw [firstExpanded, same, secondExpanded]

theorem units_eq (amount : Decimal) :
    amount.units =
      if amount.negative then -((amount.coefficient * 10 ^ (maxScale - amount.scale) : Nat) : Int)
      else (amount.coefficient * 10 ^ (maxScale - amount.scale) : Nat) := by
  rw [units, coefficientAt, signedCoefficient]
  split
  · rw [Int.neg_mul, ← Int.natCast_mul]
    rfl
  · rw [← Int.natCast_mul]
    rfl

theorem natAbs_units (amount : Decimal) :
    amount.units.natAbs = amount.coefficient * 10 ^ (maxScale - amount.scale) := by
  rw [units_eq]
  split
  · rw [Int.natAbs_neg, Int.natAbs_natCast]
  · rw [Int.natAbs_natCast]

/-- A value is written without rounding if it is the value of some coefficient
that fits, at whatever scale. -/
theorem exists_fit?_eq (negative : Bool) {coefficient ownScale : Nat} (dropped : Nat)
    (fits : coefficient < coefficientBound) (quotient : Nat) {scale : Nat}
    (ofScale : scale ≤ maxScale) (same : quotient * 10 ^ ownScale = coefficient * 10 ^ scale) :
    ∃ total, fit? negative (quotient * 10 ^ dropped) dropped scale = some total ∧
      total.coefficient * 10 ^ scale = quotient * 10 ^ total.scale ∧
      total.negative = (negative && total.coefficient != 0) := by
  have rounded (value places : Nat) :
      roundHalfEven (value * 10 ^ places) (Nat.pow 10 places) = value :=
    roundHalfEven_mul value _ (Nat.pow_pos (by decide))
  induction scale generalizing quotient dropped with
  | zero =>
      have small : quotient < coefficientBound := by
        refine Nat.lt_of_le_of_lt ?_ fits
        calc
          quotient ≤ quotient * 10 ^ ownScale := Nat.le_mul_of_pos_right _ (Nat.pow_pos (by decide))
          _ = coefficient := by rw [same, Nat.pow_zero, Nat.mul_one]
      refine ⟨⟨negative && quotient != 0, quotient, 0, small, Nat.zero_le _⟩, ?_, rfl, rfl⟩
      rw [fit?, rounded]
      exact dif_pos ⟨small, Nat.zero_le _⟩
  | succ scale ih =>
      by_cases small : quotient < coefficientBound
      · refine ⟨⟨negative && quotient != 0, quotient, scale + 1, small, ofScale⟩, ?_, rfl, rfl⟩
        rw [fit?, rounded]
        exact (if_pos small).trans (dif_pos ⟨small, ofScale⟩)
      · -- A quotient that does not fit ends in a zero, which is dropped.
        have shorter : ownScale ≤ scale := by
          refine Nat.not_lt.mp fun longer => Nat.ne_of_gt ?_ same
          exact Nat.mul_lt_mul_of_lt_of_le (by omega) (Nat.pow_le_pow_right (by decide) longer)
            (Nat.pow_pos (by decide))
        have split : 10 ^ (scale - ownScale) * 10 ^ ownScale = 10 ^ scale := by
          rw [← Nat.pow_add, Nat.sub_add_cancel shorter]
        have endsInZero : quotient = coefficient * 10 ^ (scale - ownScale) * 10 := by
          apply Nat.eq_of_mul_eq_mul_right (Nat.pow_pos (n := ownScale) (by decide : 0 < 10))
          rw [same, Nat.mul_right_comm, Nat.mul_assoc coefficient, split, Nat.mul_assoc,
            ← Nat.pow_succ]
        obtain ⟨total, fitted, value, sign⟩ :=
          ih (dropped + 1) (coefficient * 10 ^ (scale - ownScale)) (by omega)
            (by rw [Nat.mul_assoc, split])
        refine ⟨total, ?_, ?_, sign⟩
        · rw [fit?, rounded]
          refine (if_neg small).trans ?_
          rw [← fitted, endsInZero, Nat.pow_succ, Nat.mul_assoc _ 10, Nat.mul_comm 10]
        · rw [Nat.pow_succ, ← Nat.mul_assoc, value, endsInZero, Nat.mul_right_comm]

/-- Two amounts are added exactly if their sum is an amount. -/
theorem IsAmount.exists_add?_eq {first second : Decimal}
    (isAmount : IsAmount (first.units + second.units)) :
    ∃ total, add? first second = some total ∧ total.units = first.units + second.units := by
  by_cases firstZero : first.coefficient = 0
  · refine ⟨second, if_pos firstZero, ?_⟩
    rw [units_of_coefficient_eq_zero firstZero, Int.zero_add]
  by_cases secondZero : second.coefficient = 0
  · refine ⟨first, ?_, ?_⟩
    · rw [add?, if_neg firstZero, if_pos secondZero]
    · rw [units_of_coefficient_eq_zero secondZero, Int.add_zero]
  have common : max first.scale second.scale ≤ maxScale :=
    Nat.max_le.mpr ⟨first.scale_le, second.scale_le⟩
  have added : add? first second =
      fit? (decide (first.coefficientAt (max first.scale second.scale) +
          second.coefficientAt (max first.scale second.scale) < 0))
        (first.coefficientAt (max first.scale second.scale) +
          second.coefficientAt (max first.scale second.scale)).natAbs 0
        (max first.scale second.scale) := by
    rw [add?, if_neg firstZero, if_neg secondZero]
  have sameValue : first.units + second.units =
      (first.coefficientAt (max first.scale second.scale) +
        second.coefficientAt (max first.scale second.scale)) *
        (Nat.pow 10 (maxScale - max first.scale second.scale) : Nat) := by
    rw [units, units, first.coefficientAt_mul (Nat.le_max_left _ second.scale) common,
      second.coefficientAt_mul (Nat.le_max_right first.scale _) common, Int.add_mul]
  generalize max first.scale second.scale = scale at common added sameValue
  generalize first.coefficientAt scale + second.coefficientAt scale = value at added sameValue
  obtain ⟨amount, isSum⟩ := isAmount
  have fits : value.natAbs * 10 ^ amount.scale = amount.coefficient * 10 ^ scale := by
    apply (mul_pow_sub_eq_iff common amount.scale_le).mp
    rw [← natAbs_units, isSum, sameValue, Int.natAbs_mul, Int.natAbs_natCast]
    rfl
  obtain ⟨total, fitted, sameTotal, sign⟩ :=
    exists_fit?_eq (decide (value < 0)) 0 amount.coefficient_lt _ common fits
  rw [Nat.pow_zero, Nat.mul_one] at fitted
  refine ⟨total, added.trans fitted, ?_⟩
  have absolute := (mul_pow_sub_eq_iff total.scale_le common).mpr sameTotal
  have power : Nat.pow 10 (maxScale - scale) = 10 ^ (maxScale - scale) := rfl
  rw [sameValue, units_eq, absolute, sign, power, Int.natCast_mul]
  by_cases below : value < 0
  · have nonzero : total.coefficient ≠ 0 := by
      intro isZero
      rw [isZero, Nat.zero_mul] at sameTotal
      rcases Nat.mul_eq_zero.mp sameTotal.symm with noValue | noPower
      · omega
      · exact absurd noPower (Nat.ne_of_gt (Nat.pow_pos (by decide)))
    rw [if_pos (by simp [below, nonzero]), ← Int.neg_mul]
    congr 1
    omega
  · rw [if_neg (by simp [below])]
    congr 1
    omega

theorem exists_foldlM_add?_eq (start : Decimal) {amounts : List Decimal}
    (areAmounts : ∀ part, part <+: amounts → IsAmount (start.units + sumUnits part)) :
    ∃ total, amounts.foldlM add? start = some total ∧
      total.units = start.units + sumUnits amounts := by
  induction amounts generalizing start with
  | nil => exact ⟨start, rfl, (Int.add_zero _).symm⟩
  | cons amount amounts ih =>
      have sumOne : sumUnits [amount] = amount.units := Int.add_zero _
      have sumCons : ∀ part, sumUnits (amount :: part) = amount.units + sumUnits part :=
        fun _ => List.sum_cons
      have isAmount := areAmounts [amount] (List.prefix_append [amount] amounts)
      rw [sumOne] at isAmount
      obtain ⟨next, added, nextValue⟩ := isAmount.exists_add?_eq
      have restAreAmounts : ∀ part, part <+: amounts → IsAmount (next.units + sumUnits part) := by
        intro part isPrefix
        rw [nextValue, Int.add_assoc, ← sumCons]
        exact areAmounts (amount :: part) (List.cons_prefix_cons.mpr ⟨rfl, isPrefix⟩)
      obtain ⟨total, summed, totalValue⟩ := ih next restAreAmounts
      refine ⟨total, ?_, ?_⟩
      · rw [List.foldlM_cons, added]
        exact summed
      · rw [totalValue, nextValue, sumCons, Int.add_assoc]

/-- Amounts whose partial sums are amounts have a sum, and it is their sum. -/
theorem HasAmountSums.exists_sum?_eq {amounts : List Decimal}
    (amountSums : HasAmountSums amounts) :
    ∃ total, sum? amounts = some total ∧ total.units = sumUnits amounts := by
  have zeroValue : zero.units = 0 := rfl
  have areAmounts : ∀ part, part <+: amounts → IsAmount (zero.units + sumUnits part) := by
    intro part isPrefix
    rw [zeroValue, Int.zero_add]
    exact amountSums part isPrefix
  obtain ⟨total, summed, value⟩ := exists_foldlM_add?_eq zero areAmounts
  exact ⟨total, summed, by rw [value, zeroValue, Int.zero_add]⟩

theorem sumUnits_eq_mul {scale : Nat} (ofScale : scale ≤ maxScale) {amounts : List Decimal}
    (own : ∀ amount ∈ amounts, amount.scale ≤ scale) :
    sumUnits amounts = sumAt scale amounts * (Nat.pow 10 (maxScale - scale) : Nat) := by
  induction amounts with
  | nil => exact (Int.zero_mul _).symm
  | cons amount amounts ih =>
      obtain ⟨amountOwn, othersOwn⟩ := List.forall_mem_cons.mp own
      have unitsCons : sumUnits (amount :: amounts) = amount.units + sumUnits amounts :=
        List.sum_cons
      have sumCons : sumAt scale (amount :: amounts) =
          amount.coefficientAt scale + sumAt scale amounts := List.sum_cons
      rw [unitsCons, sumCons, ih othersOwn, units, amount.coefficientAt_mul amountOwn ofScale,
        Int.add_mul]

/-- A partial sum that has a coefficient at the largest scale is an amount. -/
theorem HasExactSums.hasAmountSums {amounts : List Decimal} (exactSums : HasExactSums amounts) :
    HasAmountSums amounts := by
  intro part isPrefix
  have ofScale := largestScale_le_maxScale amounts
  have own : ∀ amount ∈ part, amount.scale ≤ largestScale amounts :=
    fun _ member => scale_le_largestScale (isPrefix.subset member)
  have fits := exactSums part.length isPrefix.length_le
  rw [← List.prefix_iff_eq_take.mp isPrefix] at fits
  obtain ⟨total, -, ownScale, value⟩ := exists_ofValue?_eq fits ofScale
  refine ⟨total, ?_⟩
  rw [units, total.coefficientAt_mul (Nat.le_of_eq ownScale) ofScale, value,
    sumUnits_eq_mul ofScale own]

/-- Amounts with exact sums have a sum, and it is their sum. -/
theorem HasExactSums.exists_sum?_eq {amounts : List Decimal} (exactSums : HasExactSums amounts) :
    ∃ total, sum? amounts = some total ∧ total.units = sumUnits amounts :=
  exactSums.hasAmountSums.exists_sum?_eq

end Decimal

end MarketStats
