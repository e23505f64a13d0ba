import MarketStats.Decimal.Reader

/-!
# Reading back written amounts

An amount is read back with its coefficient and its scale.  The sign of a zero
is written but not read.
-/

namespace MarketStats

namespace Decimal

/-- The amount without the sign of a zero. -/
def withoutZeroSign (amount : Decimal) : Decimal :=
  { amount with negative := amount.negative && amount.coefficient != 0 }

/-- Only a negative zero has a sign to lose. -/
theorem withoutZeroSign_eq_self_iff (amount : Decimal) :
    amount.withoutZeroSign = amount ↔ (amount.coefficient = 0 → amount.negative = false) := by
  obtain ⟨negative, coefficient, scale, _, _⟩ := amount
  simp only [withoutZeroSign, mk.injEq, and_true]
  by_cases isZero : coefficient = 0
  · simp [isZero, eq_comm]
  · simp [isZero]

@[simp]
theorem withoutZeroSign_withoutZeroSign (amount : Decimal) :
    amount.withoutZeroSign.withoutZeroSign = amount.withoutZeroSign := by
  simp [withoutZeroSign]

theorem ofValue?_eq_withoutZeroSign (amount : Decimal) :
    ofValue? amount.negative amount.coefficient amount.scale = some amount.withoutZeroSign :=
  ofParts?_parts amount.withoutZeroSign

theorem le_ofDigitChars (digits : List Char) (start : Nat) :
    start ≤ Nat.ofDigitChars 10 digits start := by
  rw [Nat.ofDigitChars_eq_ofDigitChars_zero]
  calc
    start ≤ 10 ^ digits.length * start := Nat.le_mul_of_pos_left _ (Nat.pow_pos (by decide))
    _ ≤ 10 ^ digits.length * start + Nat.ofDigitChars 10 digits 0 := Nat.le_add_right _ _

/-- The progress after some more digits. -/
def Progress.pushAll (progress : Progress) (digits : List Char) : Progress :=
  { coefficient := Nat.ofDigitChars 10 digits progress.coefficient
    scale := if progress.pastPoint then progress.scale + digits.length else progress.scale
    pastPoint := progress.pastPoint
    started := progress.started || !digits.isEmpty }

theorem Progress.pushAll_cons (progress : Progress) (digit : Char) (digits : List Char) :
    (progress.push (digit.toNat - '0'.toNat)).pushAll digits =
      progress.pushAll (digit :: digits) := by
  unfold pushAll push
  rw [Nat.ofDigitChars_cons, Nat.mul_comm]
  congr 1
  · simp only [List.length_cons]
    split <;> omega
  · simp

/-- Digits are read one after the other while they fit. -/
theorem readMagnitude_append_of_digits (progress : Progress) {digits : List Char}
    (allDigits : ∀ digit ∈ digits, digit.isDigit = true)
    (fits : (progress.pushAll digits).coefficient < coefficientBound)
    (fitsScale : progress.pastPoint = true → progress.scale + digits.length ≤ maxScale)
    (rest : List Char) :
    readMagnitude progress (digits ++ rest) = readMagnitude (progress.pushAll digits) rest := by
  induction digits generalizing progress with
  | nil =>
      congr 1
      simp [Progress.pushAll]
  | cons digit digits ih =>
      obtain ⟨isDigit, others⟩ := List.forall_mem_cons.mp allDigits
      have value : digitValue? digit = some (digit.toNat - '0'.toNat) := if_pos isDigit
      have notPoint : digit ≠ '.' := by
        rintro rfl
        cases isDigit
      have notSeparator : digit ≠ '_' := by
        rintro rfl
        cases isDigit
      have room : ¬ (progress.pastPoint = true ∧ maxScale ≤ progress.scale) := by
        rintro ⟨pastPoint, full⟩
        have := fitsScale pastPoint
        simp only [List.length_cons] at this
        omega
      rw [← Progress.pushAll_cons] at fits ⊢
      have fitsNow : (progress.push (digit.toNat - '0'.toNat)).coefficient < coefficientBound :=
        Nat.lt_of_le_of_lt (le_ofDigitChars digits _) fits
      rw [List.cons_append, readMagnitude, if_neg room, if_neg notPoint, if_neg notSeparator, value]
      change (if _ then readMagnitude (progress.push (digit.toNat - '0'.toNat)) (digits ++ rest)
        else _) = _
      rw [if_pos fitsNow]
      apply ih _ others fits
      intro pastPoint
      have := fitsScale pastPoint
      simp only [List.length_cons] at this
      simp only [Progress.push] at pastPoint ⊢
      rw [if_pos pastPoint]
      omega

section Written

variable (amount : Decimal)

/-- The digits of an amount, with zeros in front so that at least one of them
stands in front of the point. -/
def paddedDigits : List Char :=
  List.replicate (amount.scale + 1 - (digitsOf amount.coefficient).length) '0' ++
    digitsOf amount.coefficient

theorem isDigit_of_mem_paddedDigits {digit : Char} (member : digit ∈ amount.paddedDigits) :
    digit.isDigit = true := by
  rcases List.mem_append.mp member with padding | isDigit
  · rw [List.eq_of_mem_replicate padding]
    rfl
  · exact Nat.isDigit_of_mem_toDigits (by decide) (by decide) isDigit

theorem scale_lt_length_paddedDigits : amount.scale < amount.paddedDigits.length := by
  unfold paddedDigits
  rw [List.length_append, List.length_replicate]
  omega

theorem ofDigitChars_paddedDigits :
    Nat.ofDigitChars 10 amount.paddedDigits 0 = amount.coefficient := by
  unfold paddedDigits digitsOf
  rw [Nat.ofDigitChars_append, Nat.ofDigitChars_replicate_zero, Nat.mul_zero,
    Nat.ofDigitChars_ten_toDigits]

def wholeDigits : List Char :=
  amount.paddedDigits.take (amount.paddedDigits.length - amount.scale)

def fractionDigits : List Char :=
  amount.paddedDigits.drop (amount.paddedDigits.length - amount.scale)

theorem length_fractionDigits : amount.fractionDigits.length = amount.scale := by
  have enough := amount.scale_lt_length_paddedDigits
  unfold fractionDigits
  rw [List.length_drop]
  omega

theorem wholeDigits_ne_nil : amount.wholeDigits ≠ [] := by
  have enough := amount.scale_lt_length_paddedDigits
  unfold wholeDigits
  intro isEmpty
  have := congrArg List.length isEmpty
  rw [List.length_take, List.length_nil] at this
  omega

theorem toChars_eq :
    amount.toChars =
      (if amount.negative then ['-'] else []) ++
        (amount.wholeDigits ++ if amount.scale = 0 then [] else '.' :: amount.fractionDigits) := by
  rw [← List.append_assoc]
  rfl

/-- The digits of a written amount are read as its coefficient and scale. -/
theorem readMagnitude_digits :
    readMagnitude .start
        (amount.wholeDigits ++ if amount.scale = 0 then [] else '.' :: amount.fractionDigits) =
      some ⟨amount.coefficient, amount.scale⟩ := by
  have whole : ∀ digit ∈ amount.wholeDigits, digit.isDigit = true :=
    fun digit member => amount.isDigit_of_mem_paddedDigits (List.mem_of_mem_take member)
  have fraction : ∀ digit ∈ amount.fractionDigits, digit.isDigit = true :=
    fun digit member => amount.isDigit_of_mem_paddedDigits (List.mem_of_mem_drop member)
  have joined : Nat.ofDigitChars 10 amount.fractionDigits
      (Nat.ofDigitChars 10 amount.wholeDigits 0) = amount.coefficient := by
    rw [← Nat.ofDigitChars_append, wholeDigits, fractionDigits, List.take_append_drop,
      ofDigitChars_paddedDigits]
  have fits := amount.coefficient_lt
  have fitsWhole : (Progress.start.pushAll amount.wholeDigits).coefficient < coefficientBound := by
    apply Nat.lt_of_le_of_lt _ fits
    rw [← joined]
    exact le_ofDigitChars _ _
  have behindWhole : Progress.start.pushAll amount.wholeDigits =
      ⟨Nat.ofDigitChars 10 amount.wholeDigits 0, 0, false, true⟩ := by
    simp [Progress.pushAll, Progress.start, wholeDigits_ne_nil]
  rw [readMagnitude_append_of_digits _ whole fitsWhole (by rintro ⟨⟩), behindWhole]
  by_cases noFraction : amount.scale = 0
  · have isWhole : amount.fractionDigits = [] := by
      apply List.eq_nil_of_length_eq_zero
      rw [length_fractionDigits, noFraction]
    rw [isWhole, Nat.ofDigitChars_nil] at joined
    rw [if_pos noFraction, readMagnitude, if_pos rfl, joined, noFraction]
  · rw [if_neg noFraction, readMagnitude, if_neg (by rintro ⟨⟨⟩, _⟩), if_pos rfl,
      if_neg (by rintro ⟨⟩)]
    have behindPoint := readMagnitude_append_of_digits
      ⟨Nat.ofDigitChars 10 amount.wholeDigits 0, 0, true, true⟩ fraction
      (by
        change Nat.ofDigitChars 10 amount.fractionDigits _ < _
        rw [joined]
        exact fits)
      (by
        intro _
        rw [length_fractionDigits, Nat.zero_add]
        exact amount.scale_le) []
    rw [List.append_nil] at behindPoint
    rw [behindPoint, readMagnitude]
    simp [Progress.pushAll, joined, length_fractionDigits]

end Written

/-- A written amount is read back, without the sign of a zero. -/
theorem read?_toChars (amount : Decimal) :
    read? amount.toChars = some amount.withoutZeroSign := by
  have signed : splitSign amount.toChars =
      (amount.negative,
        amount.wholeDigits ++ if amount.scale = 0 then [] else '.' :: amount.fractionDigits) := by
    rw [toChars_eq]
    cases amount.negative with
    | true => rfl
    | false =>
        rcases digits : amount.wholeDigits with _ | ⟨first, others⟩
        · exact absurd digits amount.wholeDigits_ne_nil
        have isDigit : first.isDigit = true := by
          apply amount.isDigit_of_mem_paddedDigits
          apply List.mem_of_mem_take (i := amount.paddedDigits.length - amount.scale)
          change first ∈ amount.wholeDigits
          rw [digits]
          exact List.mem_cons_self
        change splitSign (first :: _) = (false, first :: _)
        unfold splitSign
        split
        · rename_i minus
          cases minus
          cases isDigit
        · rename_i plus
          cases plus
          cases isDigit
        · rfl
  have plain : readPlain? amount.toChars = some amount.withoutZeroSign := by
    unfold readPlain?
    rw [signed]
    simp only [readMagnitude_digits, Option.bind_some, ofValue?_eq_withoutZeroSign]
  unfold read?
  rw [plain]
  rfl

end Decimal

end MarketStats
