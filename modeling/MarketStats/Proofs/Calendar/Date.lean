import MarketStats.Calendar.Date

/-!
# The numbering of the days

Every year begins where the year before it ends, so the year of a day is the
last one that begins at or before it.  The same holds for the months within a
year.  Hence the calendar has one date for every day, and the parts of a date
stay within their usual bounds.  Later days have later dates: the year decides,
then the month, and then the day.
-/

namespace MarketStats

namespace Calendar

section Years

theorem daysBeforeYear_succ (year : Int) :
    daysBeforeYear (year + 1) =
      daysBeforeYear year + totalLength (monthLengths (isLeapYear year)) := by
  rw [totalLength_monthLengths]
  unfold daysBeforeYear
  by_cases leap : isLeapYear year = true
  · rw [if_pos leap]
    simp only [isLeapYear, decide_eq_true_eq] at leap
    omega
  · rw [if_neg leap]
    simp only [isLeapYear, decide_eq_true_eq] at leap
    omega

theorem daysBeforeYear_mono {first second : Int} (ordered : first ≤ second) :
    daysBeforeYear first ≤ daysBeforeYear second := by
  unfold daysBeforeYear
  omega

/-- The year of a day is the last one that does not begin after the day. -/
theorem le_splitYear_iff {year days : Int} :
    year ≤ (splitYear days).1 ↔ daysBeforeYear year ≤ days := by
  have begins := daysBeforeYear_splitYear days
  constructor
  · intro ordered
    have := daysBeforeYear_mono ordered
    omega
  · intro begun
    apply Int.not_lt.mp
    intro before
    have ends := daysBeforeYear_mono (Int.add_one_le_of_lt before)
    have inside := splitYear_inside days
    rw [daysBeforeYear_succ] at ends
    omega

theorem splitYear_daysBeforeYear_add {year : Int} {position : Nat}
    (inside : position < totalLength (monthLengths (isLeapYear year))) :
    splitYear (daysBeforeYear year + position) = (year, position) := by
  have atLeast : year ≤ (splitYear (daysBeforeYear year + position)).1 :=
    le_splitYear_iff.mpr (by omega)
  have atMost : ¬ year + 1 ≤ (splitYear (daysBeforeYear year + position)).1 := by
    rw [le_splitYear_iff, daysBeforeYear_succ]
    omega
  have sameYear : (splitYear (daysBeforeYear year + position)).1 = year := by omega
  have total := daysBeforeYear_splitYear (daysBeforeYear year + position)
  rw [sameYear] at total
  exact Prod.ext sameYear (by omega)

end Years

section Months

/-- A position in a period is found behind the periods before it. -/
theorem splitPeriods_totalLength_add {lengths : List Nat} {index position : Nat}
    (inside : position < lengths.getD index 0) :
    splitPeriods lengths (totalLength (lengths.take index) + position) = (index, position) := by
  induction lengths generalizing index with
  | nil => simp at inside
  | cons length lengths ih =>
      cases index with
      | zero =>
          have here : position < length := by simpa using inside
          rw [List.take_zero, totalLength, Nat.zero_add, splitPeriods, if_pos here]
      | succ index =>
          rw [List.take_succ_cons, totalLength, splitPeriods, if_neg (by omega), Nat.add_assoc,
            Nat.add_sub_cancel_left, ih (by simpa using inside)]

theorem totalLength_take_add_lt {lengths : List Nat} {index position : Nat}
    (inside : position < lengths.getD index 0) :
    totalLength (lengths.take index) + position < totalLength lengths := by
  induction lengths generalizing index with
  | nil => simp at inside
  | cons length lengths ih =>
      cases index with
      | zero =>
          simp only [List.getD_cons_zero] at inside
          simp only [List.take_zero, totalLength]
          omega
      | succ index =>
          have := ih (by simpa using inside)
          simp only [List.take_succ_cons, totalLength]
          omega

/-- A position in a period comes before the end of the period. -/
theorem totalLength_take_add_lt_take {lengths : List Nat} {index later position : Nat}
    (inside : position < lengths.getD index 0) (before : index < later) :
    totalLength (lengths.take index) + position < totalLength (lengths.take later) := by
  have samePeriod : (lengths.take later).getD index 0 = lengths.getD index 0 := by
    rw [List.getD_eq_getElem?_getD, List.getD_eq_getElem?_getD, List.getElem?_take_of_lt before]
  have samePeriods : (lengths.take later).take index = lengths.take index := by
    rw [List.take_take, Nat.min_eq_left (Nat.le_of_lt before)]
  rw [← samePeriods]
  exact totalLength_take_add_lt (samePeriod ▸ inside)

end Months

namespace Date

theorem eq_of_parts {first second : Date} (years : first.year = second.year)
    (months : first.month = second.month) (days : first.day = second.day) : first = second := by
  obtain ⟨year, month, day, _, _, _⟩ := first
  cases years
  cases months
  cases days
  rfl

variable (date : Date)

/-- The days of a month are numbered from one up to its length. -/
theorem day_sub_one_lt :
    date.day - 1 < (monthLengths (isLeapYear date.year)).getD (date.month - 1) 0 := by
  obtain ⟨year, month, day, month_pos, day_pos, day_le⟩ := date
  cases month with
  | zero => cases month_pos
  | succ index =>
      change day ≤ (monthLengths (isLeapYear year)).getD index 0 at day_le
      simp only [Nat.add_sub_cancel]
      omega

theorem ofDayNumber_dayNumber : ofDayNumber date.dayNumber = date := by
  have inYear : splitYear (date.dayNumber + epochDays) =
      (date.year, daysBeforeMonth (isLeapYear date.year) date.month + (date.day - 1)) := by
    unfold dayNumber daysBeforeMonth
    rw [Int.sub_add_cancel, Int.add_assoc, ← Int.natCast_add]
    exact splitYear_daysBeforeYear_add (totalLength_take_add_lt date.day_sub_one_lt)
  have inMonth : splitPeriods (monthLengths (isLeapYear date.year))
      (daysBeforeMonth (isLeapYear date.year) date.month + (date.day - 1)) =
      (date.month - 1, date.day - 1) :=
    splitPeriods_totalLength_add date.day_sub_one_lt
  have month_pos := date.month_pos
  have day_pos := date.day_pos
  apply eq_of_parts
  · unfold ofDayNumber
    simp only [inYear]
  · unfold ofDayNumber
    simp only [inYear, inMonth]
    omega
  · unfold ofDayNumber
    simp only [inYear, inMonth]
    omega

theorem month_le : date.month ≤ 12 := by
  have inside := date.day_sub_one_lt
  apply Nat.le_of_not_lt
  intro beyond
  have noMonth : (monthLengths (isLeapYear date.year))[date.month - 1]? = none := by
    apply List.getElem?_eq_none
    change 12 ≤ _
    omega
  rw [List.getD_eq_getElem?_getD, noMonth] at inside
  cases inside

theorem day_le_thirtyOne : date.day ≤ 31 := by
  have inside := date.day_sub_one_lt
  have isMonth := date.month_le
  have atMost : ∀ (leap : Bool) (index : Nat), index < 12 →
      (monthLengths leap).getD index 0 ≤ 31 := by decide
  have := atMost (isLeapYear date.year) (date.month - 1) (by omega)
  omega

/-- The number whose decimal digits are the year, the month and the day. -/
def digits : Int :=
  date.year * 10000 + date.month * 100 + date.day

variable {first second : Date}

/-- Two dates are in order by their years, by their months in the same year, or
by their days in the same month. -/
theorem digits_lt_cases (earlier : first.digits < second.digits) :
    first.year < second.year ∨
      first.year = second.year ∧
        (first.month < second.month ∨ first.month = second.month ∧ first.day < second.day) := by
  have firstMonth := first.month_le
  have firstDay := first.day_le_thirtyOne
  have secondMonth := second.month_le
  have secondDay := second.day_le_thirtyOne
  unfold digits at earlier
  omega

theorem eq_of_digits_eq (same : first.digits = second.digits) : first = second := by
  have firstMonth := first.month_le
  have firstDay := first.day_le_thirtyOne
  have secondMonth := second.month_le
  have secondDay := second.day_le_thirtyOne
  unfold digits at same
  exact eq_of_parts (by omega) (by omega) (by omega)

theorem dayNumber_lt_of_digits_lt (earlier : first.digits < second.digits) :
    first.dayNumber < second.dayNumber := by
  have firstPosition := first.day_sub_one_lt
  unfold dayNumber
  -- The first part in which the dates differ decides: the earlier year or month has
  -- ended when the later one begins.
  rcases digits_lt_cases earlier with years | ⟨sameYear, months | ⟨sameMonth, days⟩⟩
  · have inYear := totalLength_take_add_lt firstPosition
    have ends := daysBeforeYear_mono (Int.add_one_le_of_lt years)
    rw [daysBeforeYear_succ] at ends
    unfold daysBeforeMonth
    omega
  · have firstMonth := first.month_pos
    have inMonth := totalLength_take_add_lt_take firstPosition
      (show first.month - 1 < second.month - 1 by omega)
    unfold daysBeforeMonth
    rw [← sameYear]
    omega
  · have firstDay := first.day_pos
    rw [sameYear, sameMonth]
    omega

/-- Later days have later dates. -/
theorem dayNumber_lt_iff (first second : Date) :
    first.dayNumber < second.dayNumber ↔ first.digits < second.digits := by
  refine ⟨fun earlier => ?_, dayNumber_lt_of_digits_lt⟩
  rcases Int.lt_trichotomy first.digits second.digits with before | same | behind
  · exact before
  · rw [eq_of_digits_eq same] at earlier
    exact absurd earlier (Int.lt_irrefl _)
  · exact absurd (dayNumber_lt_of_digits_lt behind) (Int.lt_asymm earlier)

end Date

end Calendar

end MarketStats
