import MarketStats.Calendar.Date

/-!
# Instants

An instant is a second on the UTC clock and a fraction of it in nanoseconds.
A leap second is the last second of a minute with more than a thousand million
nanoseconds, so instants are ordered by their seconds first.  The calendar
years from -262143 to 262142 are representable.  A second that is prolonged in
the middle of a minute is left out: no clock on UTC shows it, and no text is
read as one.
-/

namespace MarketStats

namespace Calendar

def leastYear : Int := -262143

def greatestYear : Int := 262142

/-- The first representable second, counted from the start of 1970. -/
def leastSecond : Int := -8334601228800

/-- The last representable second, counted from the start of 1970. -/
def greatestSecond : Int := 8210266876799

/-- A representable instant.  Only the last second of a minute may be a leap
second. -/
structure Instant where
  seconds : Int
  nanos : Nat
  seconds_ge : leastSecond ≤ seconds
  seconds_le : seconds ≤ greatestSecond
  nanos_lt : nanos < 2000000000
  leap_at_minute_end : 1000000000 ≤ nanos → seconds % 60 = 59
deriving DecidableEq

/-- A reading of calendar and clock: a day, a time of day, and the distance of
the clock from UTC.  Second sixty is a leap second. -/
structure ClockReading where
  date : Date
  hour : Nat
  minute : Nat
  second : Nat
  nanos : Nat
  offsetMinutes : Int

namespace Instant

instance : LT Instant where
  lt first second :=
    first.seconds < second.seconds ∨
      (first.seconds = second.seconds ∧ first.nanos < second.nanos)

instance : LE Instant where
  le first second := ¬ second < first

instance (first second : Instant) : Decidable (first < second) :=
  inferInstanceAs (Decidable (_ ∨ _))

instance (first second : Instant) : Decidable (first ≤ second) :=
  inferInstanceAs (Decidable (¬ _))

theorem lt_iff {first second : Instant} :
    first < second ↔
      first.seconds < second.seconds ∨
        (first.seconds = second.seconds ∧ first.nanos < second.nanos) :=
  Iff.rfl

theorem le_iff {first second : Instant} :
    first ≤ second ↔
      first.seconds < second.seconds ∨
        (first.seconds = second.seconds ∧ first.nanos ≤ second.nanos) := by
  change ¬ second < first ↔ _
  rw [lt_iff]
  omega

def ofSecond (seconds : Int) (seconds_ge : leastSecond ≤ seconds)
    (seconds_le : seconds ≤ greatestSecond) : Instant :=
  { seconds
    nanos := 0
    seconds_ge
    seconds_le
    nanos_lt := by decide
    leap_at_minute_end := fun leap => absurd leap (by decide) }

def last : Instant :=
  { seconds := greatestSecond
    nanos := 999999999
    seconds_ge := by decide
    seconds_le := by decide
    nanos_lt := by decide
    leap_at_minute_end := fun _ => by decide }

/-- The first instant of 2024, in front of which no activity is of interest
unless configured otherwise. -/
def startOf2024 : Instant :=
  ofSecond 1704067200 (by decide) (by decide)

def date (instant : Instant) : Date :=
  Date.ofDayNumber (instant.seconds / 86400)

def secondOfDay (instant : Instant) : Nat :=
  (instant.seconds % 86400).toNat

end Instant

/-- Seconds from the start of the day to the second that a reading names; a
leap second is put into the last second of its minute. -/
def ClockReading.secondOfDay (reading : ClockReading) : Nat :=
  reading.hour * 3600 + reading.minute * 60 + min reading.second 59

/-- The instant that a reading names, if every part is in range. -/
def ClockReading.toInstant? (reading : ClockReading) : Option Instant :=
  let seconds :=
    reading.date.dayNumber * 86400 + reading.secondOfDay - reading.offsetMinutes * 60
  let nanos := if reading.second = 60 then reading.nanos + 1000000000 else reading.nanos
  if inRange :
      (leastYear ≤ reading.date.year ∧ reading.date.year ≤ greatestYear) ∧
      (reading.hour < 24 ∧ reading.minute < 60 ∧ reading.second ≤ 60 ∧
        reading.nanos < 1000000000) ∧
      reading.offsetMinutes.natAbs < 1440 ∧
      leastSecond ≤ seconds ∧ seconds ≤ greatestSecond then
    some
      { seconds
        nanos
        seconds_ge := inRange.2.2.2.1
        seconds_le := inRange.2.2.2.2
        nanos_lt := by
          have small := inRange.2.1.2.2.2
          simp only [nanos]
          split <;> omega
        leap_at_minute_end := by
          have small := inRange.2.1.2.2.2
          intro leap
          simp only [nanos] at leap
          split at leap
          · simp only [seconds, ClockReading.secondOfDay]
            omega
          · omega }
  else
    none

end Calendar

end MarketStats
