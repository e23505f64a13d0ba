import MarketStats.HourBucket
import MarketStats.Proofs.Calendar.Instant

/-!
# Keys of hour buckets

The digits of a key can be taken apart again, because months, days and hours
have at most two digits.  The keys of the hours before year zero are negative,
and no negative number is read as a key; all other hours are found under their
keys, and under no other number.  Keys are in the order of the hours, those of
negative years included.
-/

namespace MarketStats

open Calendar

namespace HourBucket

variable (hour : HourBucket)

theorem dayNumber_date : hour.date.dayNumber = hour.index / 24 :=
  Date.dayNumber_ofDayNumber _

theorem date_start : hour.start.date = hour.date := by
  unfold Instant.date HourBucket.date
  congr 1
  change hour.index * 3600 / 86400 = hour.index / 24
  omega

theorem key_eq_digits : hour.key =
    hour.date.year * 1000000 + hour.date.month * 10000 + hour.date.day * 100 + hour.index % 24 :=
  rfl

theorem year_date_inRange : leastYear ≤ hour.date.year ∧ hour.date.year ≤ greatestYear := by
  rw [← date_start]
  exact hour.start.year_inRange

theorem key_lt : hour.key < 0x8000000000000000 := by
  have yearLe := hour.year_date_inRange.2
  have monthLe := hour.date.month_le
  have dayLe := hour.date.day_le_thirtyOne
  have digits := hour.key_eq_digits
  simp only [greatestYear] at yearLe
  omega

theorem key_ge : -0x8000000000000000 ≤ hour.key := by
  have yearGe := hour.year_date_inRange.1
  have digits := hour.key_eq_digits
  simp only [leastYear] at yearGe
  omega

/-- A key has the sign of its year. -/
theorem key_nonneg_iff : 0 ≤ hour.key ↔ 0 ≤ hour.date.year := by
  have monthLe := hour.date.month_le
  have dayLe := hour.date.day_le_thirtyOne
  have digits := hour.key_eq_digits
  omega

/-- The hours from year zero on are found under their keys. -/
theorem ofKey?_key (nonneg : 0 ≤ hour.date.year) : ofKey? hour.key = some hour := by
  have monthLe := hour.date.month_le
  have dayLe := hour.date.day_le_thirtyOne
  have digits := hour.key_eq_digits
  have valid : 0 ≤ hour.key ∧ hour.key % 100 < 24 := ⟨hour.key_nonneg_iff.mpr nonneg, by omega⟩
  have year : hour.key / 1000000 = hour.date.year := by omega
  have month : (hour.key / 10000 % 100).toNat = hour.date.month := by omega
  have day : (hour.key / 100 % 100).toNat = hour.date.day := by omega
  unfold ofKey?
  rw [if_pos valid, year, month, day, Date.of?_parts, Option.bind_some, ofIndex?_eq_some_iff,
    dayNumber_date]
  omega

/-- An hour is found under no number but its key. -/
theorem key_of_ofKey? {hour : HourBucket} {key : Int} (found : ofKey? key = some hour) :
    0 ≤ key ∧ hour.key = key := by
  unfold ofKey? at found
  split at found
  case isFalse => cases found
  case isTrue valid =>
    obtain ⟨date, isDate, isIndex⟩ := Option.bind_eq_some_iff.mp found
    have index := ofIndex?_eq_some_iff.mp isIndex
    have sameDate : hour.date = date := by
      unfold HourBucket.date
      rw [show hour.index / 24 = date.dayNumber by omega, Date.ofDayNumber_dayNumber]
    obtain ⟨year, month, day⟩ := Date.of?_eq_some isDate
    refine ⟨valid.1, ?_⟩
    rw [key_eq_digits, sameDate, year, month, day]
    omega

/-- Only hours from year zero on are found. -/
theorem year_nonneg_of_ofKey? {hour : HourBucket} {key : Int} (found : ofKey? key = some hour) :
    0 ≤ hour.date.year := by
  obtain ⟨nonneg, rfl⟩ := key_of_ofKey? found
  exact hour.key_nonneg_iff.mp nonneg

theorem ofKey?_eq_some_iff {hour : HourBucket} {key : Int} :
    ofKey? key = some hour ↔ 0 ≤ hour.date.year ∧ hour.key = key := by
  refine ⟨fun found => ⟨year_nonneg_of_ofKey? found, (key_of_ofKey? found).2⟩, ?_⟩
  rintro ⟨nonneg, rfl⟩
  exact hour.ofKey?_key nonneg

theorem key_eq_date_digits : hour.key = hour.date.digits * 100 + hour.index % 24 := by
  rw [key_eq_digits, Date.digits]
  omega

/-- Later hours have greater keys. -/
theorem key_lt_key_iff {first second : HourBucket} : first.key < second.key ↔ first < second := by
  have forwards := Date.dayNumber_lt_iff first.date second.date
  have backwards := Date.dayNumber_lt_iff second.date first.date
  rw [dayNumber_date, dayNumber_date] at forwards backwards
  rw [key_eq_date_digits, key_eq_date_digits]
  change _ ↔ first.index < second.index
  -- The days decide, and within one day the hours.
  omega

/-- Every hour of a day of the representable years has a bucket. -/
theorem exists_hour_of_date {date : Date} {hourOfDay : Nat} (inDay : hourOfDay < 24)
    (notBefore : leastYear ≤ date.year) (notAfter : date.year ≤ greatestYear) :
    ∃ hour : HourBucket, hour.date = date ∧ hour.index % 24 = hourOfDay := by
  have begins : daysBeforeYear leastYear - epochDays ≤ date.dayNumber := by
    have yearBegins := daysBeforeYear_mono notBefore
    unfold Date.dayNumber
    omega
  have ends : date.dayNumber < daysBeforeYear (greatestYear + 1) - epochDays := by
    have yearEnds := daysBeforeYear_mono (Int.add_le_add_right notAfter 1)
    have inYear := totalLength_take_add_lt date.day_sub_one_lt
    rw [daysBeforeYear_succ] at yearEnds
    unfold Date.dayNumber daysBeforeMonth
    omega
  have firstDay : (daysBeforeYear leastYear - epochDays) * 24 = leastIndex := by decide
  have lastDay : (daysBeforeYear (greatestYear + 1) - epochDays) * 24 = greatestIndex + 1 := by
    decide
  let hour : HourBucket := ⟨date.dayNumber * 24 + hourOfDay, by omega, by omega⟩
  have day : hour.index / 24 = date.dayNumber := by
    simp only [hour]
    omega
  refine ⟨hour, ?_, ?_⟩
  · rw [HourBucket.date, day, Date.ofDayNumber_dayNumber]
  · simp only [hour]
    omega

/-- A number is the key of an hour if it has the digits of a date in the
representable years, from year zero on, and those of an hour of the day. -/
theorem isSome_ofKey?_iff {key : Int} :
    (ofKey? key).isSome = true ↔
      ∃ (date : Date) (hourOfDay : Nat), 0 ≤ date.year ∧ date.year ≤ greatestYear ∧
        hourOfDay < 24 ∧
        key = date.year * 1000000 + date.month * 10000 + date.day * 100 + hourOfDay := by
  rw [Option.isSome_iff_exists]
  constructor
  · rintro ⟨hour, found⟩
    obtain ⟨nonneg, rfl⟩ := ofKey?_eq_some_iff.mp found
    refine ⟨hour.date, (hour.index % 24).toNat, nonneg, hour.year_date_inRange.2, by omega, ?_⟩
    rw [key_eq_digits]
    omega
  · rintro ⟨date, hourOfDay, nonneg, representable, inDay, rfl⟩
    have notBefore : leastYear ≤ date.year := Int.le_trans (by decide) nonneg
    obtain ⟨hour, rfl, isHour⟩ := exists_hour_of_date inDay notBefore representable
    exact ⟨hour, ofKey?_eq_some_iff.mpr ⟨nonneg, by rw [key_eq_digits, isHour]⟩⟩

/-- Hours are in the order of their keys, and all keys fit a machine word.  An
hour is found under its key if its year is not negative, and under no other
number.  The numbers that are keys of hours from year zero on are those with the
digits of a date and of an hour of the day. -/
theorem keys_order_and_name_hours :
    (∀ first second : HourBucket, first < second ↔ first.key < second.key) ∧
      (∀ hour : HourBucket, -0x8000000000000000 ≤ hour.key ∧ hour.key < 0x8000000000000000) ∧
      (∀ (key : Int) (hour : HourBucket),
        ofKey? key = some hour ↔ 0 ≤ hour.start.date.year ∧ hour.key = key) ∧
      (∀ key : Int, (ofKey? key).isSome = true ↔
        ∃ (date : Date) (hourOfDay : Nat), 0 ≤ date.year ∧ date.year ≤ greatestYear ∧
          hourOfDay < 24 ∧
          key = date.year * 1000000 + date.month * 10000 + date.day * 100 + hourOfDay) ∧
      ∀ (key other : Int) (hour : HourBucket),
        ofKey? key = some hour → ofKey? other = some hour → other = key := by
  refine ⟨fun _ _ => key_lt_key_iff.symm, fun hour => ⟨hour.key_ge, hour.key_lt⟩, ?_,
    fun _ => isSome_ofKey?_iff, ?_⟩
  · intro key hour
    rw [date_start]
    exact ofKey?_eq_some_iff
  · intro key other hour found foundAgain
    exact (key_of_ofKey? foundAgain).2.symm.trans (key_of_ofKey? found).2

/-- The last hour of a leap day is found, and it comes behind the first hour of
all, whose key is negative. -/
theorem keys_order_and_name_hours_lastOfLeapDay :
    ∃ hour : HourBucket, ofKey? 2024022923 = some hour ∧
      (∀ other, ofKey? other = some hour → other = 2024022923) ∧
      ∀ earliest : HourBucket, earliest.index = leastIndex →
        earliest.key = -262142989900 ∧ earliest < hour := by
  obtain ⟨ordered, -, exactly, isKey, unique⟩ := keys_order_and_name_hours
  let leapDay : Date := ⟨2024, 2, 29, by decide, by decide, by decide⟩
  have isFound : (ofKey? 2024022923).isSome = true :=
    (isKey 2024022923).mpr ⟨leapDay, 23, by decide, by decide, by decide, by decide⟩
  obtain ⟨hour, found⟩ := Option.isSome_iff_exists.mp isFound
  refine ⟨hour, found, fun other foundAgain => unique _ _ hour found foundAgain, ?_⟩
  rintro ⟨index, _, _⟩ rfl
  have negative : HourBucket.key ⟨leastIndex, by decide, by decide⟩ = -262142989900 := by
    decide +kernel
  refine ⟨negative, (ordered _ _).mpr ?_⟩
  rw [negative, ((exactly _ _).mp found).2]
  decide

end HourBucket

end MarketStats
