import MarketStats.Calendar.Instant
import MarketStats.Proofs.Calendar.Date

/-!
# Instants and clocks

The date of an instant lies in the representable years.  An instant is named
by every reading of calendar and clock that gives its second and its fraction
of a second.
-/

namespace MarketStats

namespace Calendar

namespace Instant

/-- The calendar year of every instant is representable. -/
theorem year_inRange (instant : Instant) :
    leastYear ≤ instant.date.year ∧ instant.date.year ≤ greatestYear := by
  have atLeast := instant.seconds_ge
  have atMost := instant.seconds_le
  have firstDay : daysBeforeYear leastYear = leastSecond / 86400 + epochDays := by decide
  have lastDay : greatestSecond / 86400 + epochDays < daysBeforeYear (greatestYear + 1) := by decide
  constructor
  · apply le_splitYear_iff.mpr
    omega
  · apply Int.lt_add_one_iff.mp
    apply Int.not_le.mp
    intro beyond
    have := le_splitYear_iff.mp beyond
    omega

theorem secondOfDay_lt (instant : Instant) : instant.secondOfDay < 86400 := by
  unfold secondOfDay
  omega

end Instant

/-- A reading with all its parts in range names the instant with its second
and its fraction. -/
theorem ClockReading.toInstant?_eq_some {reading : ClockReading} {instant : Instant}
    (inYears : leastYear ≤ reading.date.year ∧ reading.date.year ≤ greatestYear)
    (inDay : reading.hour < 24 ∧ reading.minute < 60 ∧ reading.second ≤ 60 ∧
      reading.nanos < 1000000000)
    (offset : reading.offsetMinutes.natAbs < 1440)
    (seconds : reading.date.dayNumber * 86400 + reading.secondOfDay
      - reading.offsetMinutes * 60 = instant.seconds)
    (nanos : (if reading.second = 60 then reading.nanos + 1000000000 else reading.nanos) =
      instant.nanos) :
    reading.toInstant? = some instant := by
  obtain ⟨_, _, seconds_ge, seconds_le, _, _⟩ := instant
  cases seconds
  cases nanos
  exact dif_pos ⟨inYears, inDay, offset, seconds_ge, seconds_le⟩

end Calendar

end MarketStats
