import MarketStats.Double.Written
import MarketStats.Proofs.Double.Shortest
import Std.Data.String.ToInt

/-!
# Written numbers are read back

A number is written with its shortest digits, and wherever the point stands and
with or without an exponent, they stand for the same.  So they are read back as
the number that was written.
-/

namespace MarketStats

namespace Double

def AreDigits (text : List Char) : Prop :=
  ∀ character ∈ text, character.isDigit = true

theorem areDigits_toDigits (value : ℕ) : AreDigits (Nat.toDigits 10 value) :=
  fun _ member => Nat.isDigit_of_mem_toDigits (by decide) (by decide) member

theorem areDigits_append {first second : List Char} (firstDigits : AreDigits first)
    (secondDigits : AreDigits second) : AreDigits (first ++ second) :=
  List.forall_mem_append.mpr ⟨firstDigits, secondDigits⟩

theorem areDigits_replicate (count : ℕ) : AreDigits (List.replicate count '0') := by
  intro character member
  rw [List.eq_of_mem_replicate member]
  rfl

/-- Digits are read up to a character that is none, or up to the end. -/
theorem takeWhile_digits {digits behind : List Char} (areDigits : AreDigits digits)
    (ends : ∀ character ∈ behind.head?, character.isDigit = false) :
    (digits ++ behind).takeWhile Char.isDigit = digits ∧
      (digits ++ behind).dropWhile Char.isDigit = behind := by
  rw [List.takeWhile_append_of_pos areDigits, List.dropWhile_append_of_pos areDigits]
  cases behind with
  | nil => exact ⟨List.append_nil digits, rfl⟩
  | cons character rest =>
      have noDigit := ends character rfl
      rw [List.takeWhile_cons_of_neg (by rw [noDigit]; decide), List.append_nil,
        List.dropWhile_cons_of_neg (by rw [noDigit]; decide)]
      exact ⟨rfl, rfl⟩

theorem ends_nil : ∀ character ∈ ([] : List Char).head?, character.isDigit = false :=
  fun _ nothing => nomatch nothing

/-- Digits with a point and more digits behind them are read together. -/
theorem readScientific?_point {whole fraction behind : List Char} {exponent : ℤ}
    (wholeDigits : AreDigits whole) (nonempty : whole ≠ []) (fractionDigits : AreDigits fraction)
    (ends : ∀ character ∈ behind.head?, character.isDigit = false)
    (read : readExponent? behind = some exponent) :
    readScientific? (whole ++ '.' :: (fraction ++ behind)) =
      some
        { digits := Nat.ofDigitChars 10 (whole ++ fraction) 0
          exponent := exponent - fraction.length } := by
  have point : ∀ character ∈ ('.' :: (fraction ++ behind)).head?, character.isDigit = false := by
    rintro character ⟨⟩
    rfl
  obtain ⟨isWhole, behindWhole⟩ := takeWhile_digits wholeDigits point
  obtain ⟨isFraction, behindFraction⟩ := takeWhile_digits fractionDigits ends
  have split : splitFraction ('.' :: (fraction ++ behind)) = (fraction, behind) :=
    Prod.ext isFraction behindFraction
  rw [readScientific?, isWhole, behindWhole, split]
  dsimp only
  rw [if_neg nonempty, read]
  rfl

/-- Wherever the point stands behind one of some digits, they are read. -/
theorem readScientific?_split {digits behind : List Char} {exponent : ℤ} {position : ℕ}
    (areDigits : AreDigits digits) (behindOne : 0 < position) (within : position ≤ digits.length)
    (ends : ∀ character ∈ behind.head?, character.isDigit = false)
    (read : readExponent? behind = some exponent) :
    readScientific? (digits.take position ++ '.' :: (digits.drop position ++ behind)) =
      some
        { digits := Nat.ofDigitChars 10 digits 0
          exponent := exponent - (digits.length - position : ℕ) } := by
  have wholeDigits : AreDigits (digits.take position) :=
    fun character member => areDigits character (List.mem_of_mem_take member)
  have fractionDigits : AreDigits (digits.drop position) :=
    fun character member => areDigits character (List.mem_of_mem_drop member)
  have nonempty : digits.take position ≠ [] := by
    refine List.length_pos_iff.mp ?_
    rw [List.length_take]
    omega
  rw [readScientific?_point wholeDigits nonempty fractionDigits ends read, List.take_append_drop,
    List.length_drop]

/-- Digits without a point are read, too. -/
theorem readScientific?_exponent {whole behind : List Char} {exponent : ℤ}
    (wholeDigits : AreDigits whole) (nonempty : whole ≠ [])
    (read : readExponent? ('e' :: behind) = some exponent) :
    readScientific? (whole ++ 'e' :: behind) =
      some { digits := Nat.ofDigitChars 10 whole 0, exponent } := by
  have noDigit : ∀ character ∈ ('e' :: behind).head?, character.isDigit = false := by
    rintro character ⟨⟩
    rfl
  obtain ⟨isWhole, behindWhole⟩ := takeWhile_digits wholeDigits noDigit
  have split : splitFraction ('e' :: behind) = ([], 'e' :: behind) := rfl
  rw [readScientific?, isWhole, behindWhole, split]
  dsimp only
  rw [if_neg nonempty, read, List.append_nil]
  exact congrArg (fun exponent => some (Scientific.mk _ exponent)) (Int.sub_zero exponent)

theorem readExponent?_repr (exponent : ℤ) :
    readExponent? ('e' :: exponent.repr.toList) = some exponent := by
  rw [readExponent?, String.ofList_toList, Int.toInt?_repr]

namespace Scientific

variable (number : Scientific)

theorem toDigits_ne_nil (value : ℕ) : Nat.toDigits 10 value ≠ [] :=
  List.length_pos_iff.mp Nat.length_toDigits_pos

theorem ofDigitChars_zeros (value count : ℕ) :
    Nat.ofDigitChars 10 (Nat.toDigits 10 value ++ List.replicate count '0') 0 =
      value * 10 ^ count := by
  rw [Nat.ofDigitChars_append, Nat.ofDigitChars_ten_toDigits, Nat.ofDigitChars_replicate_zero,
    Nat.mul_comm]

/-- A whole number is read back from its digits, zeros, and a zero behind the
point. -/
theorem exists_read_of_whole (whole : 0 ≤ number.exponent) :
    ∃ read, readScientific? (number.toPositional ++ ['.', '0']) = some read ∧
      read.value = number.value := by
  rw [toPositional]
  dsimp only
  rw [if_pos whole]
  generalize zeros : number.exponent.toNat = count
  have areDigits := areDigits_append (areDigits_toDigits number.digits) (areDigits_replicate count)
  have nonempty : Nat.toDigits 10 number.digits ++ List.replicate count '0' ≠ [] :=
    fun isNil => toDigits_ne_nil number.digits (List.append_eq_nil_iff.mp isNil).1
  have read := readScientific?_point areDigits nonempty (areDigits_replicate 1) ends_nil
    (rfl : readExponent? [] = some 0)
  refine ⟨_, read, ?_⟩
  rw [value, value, List.append_assoc, List.replicate_append_replicate, ofDigitChars_zeros,
    List.length_replicate]
  have exponent : number.exponent = (count : ℤ) := by omega
  rw [exponent, zpow_natCast]
  push_cast
  rw [pow_succ]
  norm_num
  ring

/-- A number with places behind the point is read back from its digits around
it. -/
theorem exists_read_of_fraction (fraction : number.exponent < 0) :
    ∃ read, readScientific? number.toPositional = some read ∧ read.value = number.value := by
  rw [toPositional]
  dsimp only
  rw [if_neg (not_le.mpr fraction)]
  generalize isPlaces : (-number.exponent).toNat = places
  have areDigits := areDigits_append
    (areDigits_replicate (places + 1 - (Nat.toDigits 10 number.digits).length))
    (areDigits_toDigits number.digits)
  have sameDigits : Nat.ofDigitChars 10
      (List.replicate (places + 1 - (Nat.toDigits 10 number.digits).length) '0'
        ++ Nat.toDigits 10 number.digits) 0 = number.digits := by
    rw [Nat.ofDigitChars_append, Nat.ofDigitChars_replicate_zero, Nat.mul_zero,
      Nat.ofDigitChars_ten_toDigits]
  have long : places + 1 ≤ (List.replicate (places + 1 - (Nat.toDigits 10 number.digits).length) '0'
      ++ Nat.toDigits 10 number.digits).length := by
    rw [List.length_append, List.length_replicate]
    omega
  generalize List.replicate (places + 1 - (Nat.toDigits 10 number.digits).length) '0'
    ++ Nat.toDigits 10 number.digits = padded at *
  have read := readScientific?_split areDigits (by omega : 0 < padded.length - places)
    (Nat.sub_le _ _) ends_nil (rfl : readExponent? [] = some 0)
  rw [List.append_nil] at read
  refine ⟨_, read, ?_⟩
  rw [sameDigits, value, value]
  have exponent : (0 : ℤ) - ((padded.length - (padded.length - places) : ℕ) : ℤ) =
      number.exponent := by
    omega
  rw [exponent]

/-- A number is read back from its first digit, the others behind the point, and
an exponent. -/
theorem exists_read_of_exponent :
    ∃ read, readScientific? ((Nat.toDigits 10 number.digits).take 1
        ++ (if (Nat.toDigits 10 number.digits).drop 1 = [] then []
          else '.' :: (Nat.toDigits 10 number.digits).drop 1)
        ++ 'e' :: ((Nat.toDigits 10 number.digits).length + number.exponent - 1).repr.toList) =
        some read ∧
      read.value = number.value := by
  have areDigits := areDigits_toDigits number.digits
  have sameDigits := Nat.ofDigitChars_ten_toDigits (n := number.digits)
  have nonempty := Nat.length_toDigits_pos (b := 10) (n := number.digits)
  generalize Nat.toDigits 10 number.digits = digits at *
  have readExponent := readExponent?_repr (digits.length + number.exponent - 1)
  split
  · rename_i alone
    have isFirst : digits.take 1 = digits :=
      List.take_of_length_le (List.drop_eq_nil_iff.mp alone)
    have read := readScientific?_exponent areDigits (List.length_pos_iff.mp nonempty) readExponent
    rw [isFirst, List.append_nil]
    refine ⟨_, read, ?_⟩
    have isOne := List.drop_eq_nil_iff.mp alone
    have exponent : (digits.length : ℤ) + number.exponent - 1 = number.exponent := by omega
    rw [value, value, sameDigits, exponent]
  · have noDigit : ∀ character ∈ ('e' :: (digits.length + number.exponent - 1).repr.toList).head?,
        character.isDigit = false := by
      rintro character ⟨⟩
      rfl
    have read := readScientific?_split areDigits one_pos nonempty noDigit readExponent
    rw [List.append_assoc, List.cons_append]
    refine ⟨_, read, ?_⟩
    have exponent : (digits.length : ℤ) + number.exponent - 1 - (digits.length - 1 : ℕ) =
        number.exponent := by
      omega
    rw [value, value, sameDigits, exponent]

theorem exists_read_written :
    ∃ read, readScientific? number.written = some read ∧ read.value = number.value := by
  rw [written]
  dsimp only
  split
  · split
    · rename_i whole
      exact number.exists_read_of_whole whole
    · rename_i fraction
      exact number.exists_read_of_fraction (not_le.mp fraction)
  · exact number.exists_read_of_exponent

end Scientific

/-- What is read without a sign does not begin with one. -/
theorem read?_of_readScientific? {text : List Char} {found : Scientific}
    (isFound : readScientific? text = some found) :
    read? text = some (ofScientific false found) := by
  unfold read?
  split
  · exact nomatch isFound
  · rw [isFound]
    rfl

/-- The written form of a number is read back as the number. -/
theorem read?_written {number : Double} (finite : number.isFinite = true) :
    read? number.written.toList = some number := by
  obtain ⟨found, isFound, same⟩ := (number.shortest .toEven).exists_read_written
  have readBack := ofScientific_eq_of_value_eq finite same
  rw [written, String.toList_ofList, writtenMagnitude, if_pos finite]
  cases negative : number.isNegative with
  | false =>
      rw [negative] at readBack
      rw [if_neg (by decide), List.nil_append, read?_of_readScientific? isFound, readBack]
  | true =>
      rw [negative] at readBack
      rw [if_pos rfl, List.singleton_append, read?, isFound, Option.map_some, readBack]

end Double

end MarketStats
