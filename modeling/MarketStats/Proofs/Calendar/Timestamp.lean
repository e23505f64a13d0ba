import MarketStats.Calendar.Timestamp
import MarketStats.Proofs.Calendar.Instant
import Mathlib.Algebra.Order.Ring.Int

/-!
# Reading back written instants

Every instant is read back from its timestamp.  Each part of a timestamp is
read up to where the next part begins: the parts with two digits by their
length, the year and the fraction because no digit follows them.
-/

namespace MarketStats

namespace Calendar

namespace Timestamp

open Text (isBlank skipBlanks skipBlanks_cons_of_not_blank)

section Digits

variable {width limit value : Nat} {digits rest : List Char}

theorem isBlank_of_isDigit {character : Char} (isDigit : character.isDigit = true) :
    isBlank character = false := by
  have codes : 48 ≤ character.toNat ∧ character.toNat ≤ 57 := Char.isDigit_iff_toNat.mp isDigit
  simp only [isBlank, Text.singleBlanks, List.contains_cons, List.contains_nil, Bool.or_false,
    Bool.or_eq_false_iff, Bool.and_eq_false_iff, decide_eq_false_iff_not, beq_eq_false_iff_ne]
  omega

/-- A text does not go on with a digit. -/
def EndsDigits (text : List Char) : Prop :=
  ∀ character ∈ text.head?, character.isDigit = false

theorem splitDigits_append (allDigits : ∀ digit ∈ digits, digit.isDigit = true)
    (fits : digits.length ≤ limit) (ends : digits.length = limit ∨ EndsDigits rest) :
    splitDigits limit (digits ++ rest) = (digits, rest) := by
  induction digits generalizing limit with
  | nil =>
      rcases limit with _ | limit
      · rfl
      · rcases rest with _ | ⟨first, rest⟩
        · rfl
        · have noDigit : first.isDigit = false := by
            rcases ends with full | ends
            · cases full
            · exact ends first rfl
          rw [List.nil_append, splitDigits, if_neg (by simp [noDigit])]
  | cons digit digits ih =>
      obtain ⟨isDigit, others⟩ := List.forall_mem_cons.mp allDigits
      rcases limit with _ | limit
      · cases fits
      · have shorter : digits.length ≤ limit := Nat.le_of_succ_le_succ fits
        have ends : digits.length = limit ∨ EndsDigits rest := ends.imp_left Nat.succ.inj
        rw [List.cons_append, splitDigits, if_pos isDigit, ih others shorter ends]

theorem readNumber?_of_splitDigits {text : List Char} (nonempty : digits ≠ [])
    (split : splitDigits limit text = (digits, rest)) :
    readNumber? limit text = some (digitsValue digits, rest) := by
  unfold readNumber?
  rw [split]
  cases digits with
  | nil => exact absurd rfl nonempty
  | cons _ _ => rfl

theorem isDigit_of_mem_padded {digit : Char} (member : digit ∈ padded width value) :
    digit.isDigit = true := by
  rcases List.mem_append.mp member with padding | isDigit
  · rw [List.eq_of_mem_replicate padding]
    rfl
  · exact Nat.isDigit_of_mem_toDigits (by decide) (by decide) isDigit

theorem padded_ne_nil : padded width value ≠ [] := by
  simp [padded, Nat.toDigits_ne_nil]

theorem length_padded (positive : 0 < width) (small : value < 10 ^ width) :
    (padded width value).length = width := by
  have atMost := (Nat.length_toDigits_le_iff (by decide) positive).mpr small
  simp only [padded, List.length_append, List.length_replicate]
  omega

theorem digitsValue_padded : digitsValue (padded width value) = value := by
  unfold digitsValue padded
  rw [Nat.ofDigitChars_append, Nat.ofDigitChars_replicate_zero, Nat.mul_zero,
    Nat.ofDigitChars_ten_toDigits]

theorem readNumber?_padded (fits : (padded width value).length ≤ limit)
    (ends : (padded width value).length = limit ∨ EndsDigits rest) :
    readNumber? limit (padded width value ++ rest) = some (value, rest) := by
  rw [readNumber?_of_splitDigits padded_ne_nil
    (splitDigits_append (fun _ => isDigit_of_mem_padded) fits ends), digitsValue_padded]

theorem skipBlanks_padded :
    skipBlanks (padded width value ++ rest) = padded width value ++ rest := by
  rcases digits : padded width value with _ | ⟨first, others⟩
  · exact absurd digits padded_ne_nil
  · have isDigit : first.isDigit = true :=
      isDigit_of_mem_padded (by rw [digits]; exact List.mem_cons_self)
    exact skipBlanks_cons_of_not_blank (isBlank_of_isDigit isDigit)

theorem readPair?_padded (small : value < 100) :
    readPair? (padded 2 value ++ rest) = some (value, rest) := by
  have length : (padded 2 value).length = 2 := length_padded (by decide) small
  unfold readPair?
  rw [skipBlanks_padded, readNumber?_padded (Nat.le_of_eq length) (.inl length)]

end Digits

section Parts

variable {rest : List Char}

theorem readYear?_of_isDigit {first : Char} (isDigit : first.isDigit = true) :
    readYear? (first :: rest) =
      (readNumber? 4 (first :: rest)).map fun (year, behind) => ((year : Int), behind) := by
  unfold readYear?
  rw [skipBlanks_cons_of_not_blank (isBlank_of_isDigit isDigit)]
  split
  · rename_i minus
    cases minus
    cases isDigit
  · rename_i plus
    cases plus
    cases isDigit
  · rfl

/-- A year is read up to the dash behind it. -/
theorem readYear?_yearToChars (year : Int) :
    readYear? (yearToChars year ++ '-' :: rest) = some (year, '-' :: rest) := by
  have ends : EndsDigits ('-' :: rest) := by
    rintro character ⟨⟩
    rfl
  have unlimited : ∀ text : List Char, text.length ≤ (text ++ '-' :: rest).length := by
    intro text
    simp
  unfold yearToChars
  split
  case isTrue inFour =>
    have length : (padded 4 year.toNat).length = 4 := length_padded (by decide) (by omega)
    have taken := readNumber?_padded (Nat.le_of_eq length) (.inr ends)
    rcases digits : padded 4 year.toNat with _ | ⟨first, others⟩
    · exact absurd digits padded_ne_nil
    · have isDigit : first.isDigit = true :=
        isDigit_of_mem_padded (by rw [digits]; exact List.mem_cons_self)
      rw [digits] at taken
      rw [List.cons_append] at taken ⊢
      rw [readYear?_of_isDigit isDigit, taken, Option.map_some]
      simp only [Option.some.injEq, Prod.mk.injEq, and_true]
      omega
  case isFalse =>
    have taken := readNumber?_padded (unlimited (padded 4 year.natAbs)) (.inr ends)
    split
    case isTrue negative =>
      change (readNumber? (padded 4 year.natAbs ++ '-' :: rest).length
        (padded 4 year.natAbs ++ '-' :: rest)).map _ = _
      rw [taken, Option.map_some]
      simp only [Option.some.injEq, Prod.mk.injEq, and_true]
      omega
    case isFalse positive =>
      change (readNumber? (padded 4 year.natAbs ++ '-' :: rest).length
        (padded 4 year.natAbs ++ '-' :: rest)).map _ = _
      rw [taken, Option.map_some]
      simp only [Option.some.injEq, Prod.mk.injEq, and_true]
      omega

theorem readSeparator?_cons {separator : Char} (visible : isBlank separator = false) :
    readSeparator? separator (separator :: rest) = some rest := by
  unfold readSeparator?
  rw [skipBlanks_cons_of_not_blank visible]
  exact if_pos rfl

/-- A fraction with some of its nine digits is read up to the zone behind it. -/
theorem readFraction?_padded {width value : Nat} (positive : 0 < width) (widthLe : width ≤ 9)
    (small : value < 10 ^ width) :
    readFraction? ('.' :: padded width value ++ 'Z' :: rest) =
      some (value * 10 ^ (9 - width), 'Z' :: rest) := by
  have ends : EndsDigits ('Z' :: rest) := by
    rintro character ⟨⟩
    rfl
  have length : (padded width value).length = width := length_padded positive small
  have split : splitDigits 9 (padded width value ++ 'Z' :: rest) =
      (padded width value, 'Z' :: rest) :=
    splitDigits_append (fun _ => isDigit_of_mem_padded) (by omega) (.inr ends)
  change readFraction? ('.' :: (padded width value ++ 'Z' :: rest)) = _
  unfold readFraction?
  simp only [split]
  rcases digits : padded width value with _ | ⟨first, others⟩
  · exact absurd digits padded_ne_nil
  · change some (digitsValue (first :: others) * 10 ^ (9 - (first :: others).length),
      ('Z' :: rest).dropWhile Char.isDigit) = _
    rw [← digits, digitsValue_padded, length]
    rfl

theorem readFraction?_fractionToChars {nanos : Nat} (small : nanos < 1000000000) :
    readFraction? (fractionToChars nanos ++ 'Z' :: rest) = some (nanos, 'Z' :: rest) := by
  unfold fractionToChars
  split
  case isTrue none =>
    rw [none]
    rfl
  case isFalse =>
    split
    case isTrue millis =>
      rw [readFraction?_padded (by decide) (by decide) (by omega)]
      congr 2
      omega
    case isFalse =>
      split
      case isTrue micros =>
        rw [readFraction?_padded (by decide) (by decide) (by omega)]
        congr 2
        omega
      case isFalse =>
        rw [readFraction?_padded (by decide) (by decide) small]
        congr 2
        omega

end Parts

/-- The reading of the clock that the timestamp of an instant gives. -/
def clockReading (instant : Instant) : ClockReading :=
  { date := instant.date
    hour := instant.secondOfDay / 3600
    minute := instant.secondOfDay / 60 % 60
    second := instant.secondOfDay % 60 + instant.nanos / 1000000000
    nanos := instant.nanos % 1000000000
    offsetMinutes := 0 }

theorem readClock?_toChars (instant : Instant) :
    readClock? (toChars instant) = some (clockReading instant) := by
  have monthLe := instant.date.month_le
  have dayLe := instant.date.day_le_thirtyOne
  have nanosLt := instant.nanos_lt
  have inDay := instant.secondOfDay_lt
  have dash : isBlank '-' = false := rfl
  have colon : isBlank ':' = false := rfl
  have month : instant.date.month < 100 := by omega
  have day : instant.date.day < 100 := by omega
  have hour : instant.secondOfDay / 3600 < 100 := by omega
  have minute : instant.secondOfDay / 60 % 60 < 100 := by omega
  have second : instant.secondOfDay % 60 + instant.nanos / 1000000000 < 100 := by omega
  have fraction : instant.nanos % 1000000000 < 1000000000 := Nat.mod_lt _ (by decide)
  unfold readClock? toChars
  simp only [List.append_assoc, List.cons_append]
  -- One part after the other, each with the text behind it still to be read.
  refine Option.bind_eq_some_iff.mpr ⟨_, readYear?_yearToChars _, ?_⟩
  refine Option.bind_eq_some_iff.mpr ⟨_, readSeparator?_cons dash, ?_⟩
  refine Option.bind_eq_some_iff.mpr ⟨_, readPair?_padded month, ?_⟩
  refine Option.bind_eq_some_iff.mpr ⟨_, readSeparator?_cons dash, ?_⟩
  refine Option.bind_eq_some_iff.mpr ⟨_, readPair?_padded day, ?_⟩
  refine Option.bind_eq_some_iff.mpr ⟨_, rfl, ?_⟩
  refine Option.bind_eq_some_iff.mpr ⟨_, readPair?_padded hour, ?_⟩
  refine Option.bind_eq_some_iff.mpr ⟨_, readSeparator?_cons colon, ?_⟩
  refine Option.bind_eq_some_iff.mpr ⟨_, readPair?_padded minute, ?_⟩
  refine Option.bind_eq_some_iff.mpr ⟨_, readSeparator?_cons colon, ?_⟩
  refine Option.bind_eq_some_iff.mpr ⟨_, readPair?_padded second, ?_⟩
  refine Option.bind_eq_some_iff.mpr ⟨_, readFraction?_fractionToChars fraction, ?_⟩
  refine Option.bind_eq_some_iff.mpr ⟨_, rfl, ?_⟩
  refine Option.bind_eq_some_iff.mpr ⟨_, Date.of?_parts _, ?_⟩
  rfl

/-- An instant is the one its clock reading names.  In a leap second the clock
shows second sixty. -/
theorem toInstant?_clockReading (instant : Instant) :
    (clockReading instant).toInstant? = some instant := by
  have dayNumber : instant.date.dayNumber = instant.seconds / 86400 :=
    Date.dayNumber_ofDayNumber _
  have inDay := instant.secondOfDay_lt
  have leap := instant.leap_at_minute_end
  have nanosLt := instant.nanos_lt
  have inMinute : instant.secondOfDay % 60 = (instant.seconds % 60).toNat := by
    unfold Instant.secondOfDay
    omega
  apply ClockReading.toInstant?_eq_some
  · exact instant.year_inRange
  · simp only [clockReading]
    omega
  · simp only [clockReading]
    omega
  · have sameSecond : (clockReading instant).secondOfDay = instant.secondOfDay := by
      simp only [ClockReading.secondOfDay, clockReading]
      omega
    rw [sameSecond]
    simp only [clockReading, dayNumber, Instant.secondOfDay]
    omega
  · by_cases inLeapSecond : 1000000000 ≤ instant.nanos
    · have minuteEnd := leap inLeapSecond
      have sixty : (clockReading instant).second = 60 := by
        simp only [clockReading]
        omega
      rw [if_pos sixty]
      simp only [clockReading]
      omega
    · have notSixty : (clockReading instant).second ≠ 60 := by
        simp only [clockReading]
        omega
      rw [if_neg notSixty]
      simp only [clockReading]
      omega

theorem read?_toChars (instant : Instant) : read? (toChars instant) = some instant := by
  unfold read?
  rw [readClock?_toChars, Option.bind_some, toInstant?_clockReading]

end Timestamp

end Calendar

end MarketStats
