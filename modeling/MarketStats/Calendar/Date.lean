/-!
# Calendar dates

The proleptic Gregorian calendar with a year zero.  A date is a year, a month
and a day of that month; the days are numbered from the first of January 1970.
The inverse of the numbering peels off periods of four hundred years,
centuries, four-year groups, years and months.
-/

namespace MarketStats

namespace Calendar

def isLeapYear (year : Int) : Bool :=
  decide (year % 4 = 0 ∧ (year % 100 ≠ 0 ∨ year % 400 = 0))

def monthLengths (leap : Bool) : List Nat :=
  [31, if leap then 29 else 28, 31, 30, 31, 30, 31, 31, 30, 31, 30, 31]

/-- The length of a month; months are numbered from one, and other numbers
have no days. -/
def monthLength (leap : Bool) (month : Nat) : Nat :=
  match month with
  | 0 => 0
  | index + 1 => (monthLengths leap).getD index 0

/-- The number of days from the first of January of year one to the first of
January of `year`. -/
def daysBeforeYear (year : Int) : Int :=
  365 * (year - 1) + (year - 1) / 4 - (year - 1) / 100 + (year - 1) / 400

def totalLength : List Nat → Nat
  | [] => 0
  | length :: lengths => length + totalLength lengths

def daysBeforeMonth (leap : Bool) (month : Nat) : Nat :=
  totalLength ((monthLengths leap).take (month - 1))

/-- The number of days from the first of January of year one to the first of
January 1970. -/
def epochDays : Int := 719162

/-- A day of the calendar. -/
structure Date where
  year : Int
  month : Nat
  day : Nat
  month_pos : 1 ≤ month
  day_pos : 1 ≤ day
  day_le : day ≤ monthLength (isLeapYear year) month
deriving DecidableEq

namespace Date

/-- The date with the given parts, if there is one. -/
def of? (year : Int) (month day : Nat) : Option Date :=
  if valid : 1 ≤ month ∧ 1 ≤ day ∧ day ≤ monthLength (isLeapYear year) month then
    some ⟨year, month, day, valid.1, valid.2.1, valid.2.2⟩
  else
    none

def dayNumber (date : Date) : Int :=
  daysBeforeYear date.year + daysBeforeMonth (isLeapYear date.year) date.month
    + (date.day - 1 : Nat) - epochDays

end Date

/-- The year that contains a day, and the position of the day in it; days are
counted from the first of January of year one. -/
def splitYear (days : Int) : Int × Nat :=
  let era := days / 146097
  let inEra := (days % 146097).toNat
  let century := min (inEra / 36524) 3
  let inCentury := inEra - century * 36524
  let group := inCentury / 1461
  let inGroup := inCentury % 1461
  let year := min (inGroup / 365) 3
  (400 * era + 100 * century + 4 * group + year + 1, inGroup - year * 365)

/-- The period of a list of consecutive periods that contains a position, and
the position within it. -/
def splitPeriods : List Nat → Nat → Nat × Nat
  | [], position => (0, position)
  | length :: lengths, position =>
      if position < length then
        (0, position)
      else
        let (index, rest) := splitPeriods lengths (position - length)
        (index + 1, rest)

theorem splitPeriods_parts (lengths : List Nat) (position : Nat)
    (inside : position < totalLength lengths) :
    (splitPeriods lengths position).1 < lengths.length ∧
      (splitPeriods lengths position).2 < lengths.getD (splitPeriods lengths position).1 0 ∧
      totalLength (lengths.take (splitPeriods lengths position).1)
        + (splitPeriods lengths position).2 = position := by
  induction lengths generalizing position with
  | nil => simp [totalLength] at inside
  | cons length lengths ih =>
      simp only [splitPeriods]
      split
      case isTrue here => simp [here, totalLength]
      case isFalse later =>
          have restInside : position - length < totalLength lengths := by
            simp only [totalLength] at inside
            omega
          obtain ⟨indexBelow, restBelow, total⟩ := ih _ restInside
          refine ⟨by simpa using indexBelow, by simpa using restBelow, ?_⟩
          simp only [List.take_succ_cons, totalLength]
          omega

theorem totalLength_monthLengths (leap : Bool) :
    totalLength (monthLengths leap) = if leap then 366 else 365 := by
  cases leap <;> rfl

/-- A day lies in one four-hundred-year period, century, four-year group and
year; only a leap year has a day number 365. -/
theorem splitYear_parts (days : Int) :
    ∃ (era : Int) (century group year : Nat),
      century ≤ 3 ∧ group ≤ 24 ∧ year ≤ 3 ∧
      (splitYear days).1 = 400 * era + 100 * century + 4 * group + year + 1 ∧
      days = 146097 * era + 36524 * century + 1461 * group + 365 * year + (splitYear days).2 ∧
      ((splitYear days).2 < 365 ∨
        (splitYear days).2 = 365 ∧ year = 3 ∧ (group < 24 ∨ century = 3)) := by
  refine ⟨days / 146097, min ((days % 146097).toNat / 36524) 3, _, _, ?_, ?_, ?_, rfl, ?_, ?_⟩
  · omega
  · omega
  · omega
  · simp only [splitYear]
    omega
  · simp only [splitYear]
    omega

/-- The days before a year and the position in the year make up the day. -/
theorem daysBeforeYear_splitYear (days : Int) :
    daysBeforeYear (splitYear days).1 + (splitYear days).2 = days := by
  obtain ⟨era, century, group, year, centuryLe, groupLe, yearLe, isYear, total, -⟩ :=
    splitYear_parts days
  rw [isYear, daysBeforeYear]
  have fours : (400 * era + 100 * century + 4 * group + year + 1 - 1) / 4
      = 100 * era + 25 * century + group := by omega
  have centuries : (400 * era + 100 * century + 4 * group + year + 1 - 1) / 100
      = 4 * era + century := by omega
  have eras : (400 * era + 100 * century + 4 * group + year + 1 - 1) / 400 = era := by omega
  rw [fours, centuries, eras]
  omega

/-- The position of a day in its year is smaller than the length of the year. -/
theorem splitYear_inside (days : Int) :
    (splitYear days).2 < totalLength (monthLengths (isLeapYear (splitYear days).1)) := by
  obtain ⟨era, century, group, year, centuryLe, groupLe, yearLe, isYear, -, position⟩ :=
    splitYear_parts days
  rw [totalLength_monthLengths]
  rcases position with short | ⟨long, lastYear, place⟩
  · split <;> omega
  · have leap : isLeapYear (splitYear days).1 = true := by
      rw [isYear]
      simp only [isLeapYear, decide_eq_true_eq]
      omega
    rw [leap, long]
    decide

namespace Date

def ofDayNumber (number : Int) : Date :=
  let split := splitYear (number + epochDays)
  let lengths := monthLengths (isLeapYear split.1)
  let place := splitPeriods lengths split.2
  { year := split.1
    month := place.1 + 1
    day := place.2 + 1
    month_pos := by omega
    day_pos := by omega
    day_le := (splitPeriods_parts lengths split.2 (splitYear_inside _)).2.1 }

theorem dayNumber_ofDayNumber (number : Int) : (ofDayNumber number).dayNumber = number := by
  have years := daysBeforeYear_splitYear (number + epochDays)
  have months := (splitPeriods_parts _ _ (splitYear_inside (number + epochDays))).2.2
  simp only [ofDayNumber, dayNumber, daysBeforeMonth, Nat.add_sub_cancel]
  omega

theorem of?_eq_some {year : Int} {month day : Nat} {date : Date}
    (built : of? year month day = some date) :
    date.year = year ∧ date.month = month ∧ date.day = day := by
  unfold of? at built
  split at built
  · cases built
    exact ⟨rfl, rfl, rfl⟩
  · cases built

theorem of?_parts (date : Date) : of? date.year date.month date.day = some date := by
  simp [of?, date.month_pos, date.day_pos, date.day_le]

end Date

end Calendar

end MarketStats
