import MarketStats.HourBucket
import MarketStats.Proofs.Calendar.Truncation

/-!
# Instants and their hours

An hour lasts from its start until just before its end, and the hours follow one
another without a gap.  So every instant lies in one hour, the one that begins
where the minutes of the instant are cut off.  Only the end of the last hour of
all is an instant of the hour itself.
-/

namespace MarketStats

open Calendar

namespace HourBucket

/-- Later instants lie in later hours, or in the same one. -/
theorem containing_mono {first second : Instant} (ordered : first ≤ second) :
    containing first ≤ containing second := by
  change (containing first).index ≤ (containing second).index
  rw [index_containing, index_containing]
  have seconds : first.seconds ≤ second.seconds := by
    rcases Instant.le_iff.mp ordered with earlier | ⟨same, -⟩
    · omega
    · omega
  exact Int.ediv_le_ediv (by decide) seconds

/-- An instant between the ends of an hour is contained in it. -/
theorem containing_eq_of_within {hour : HourBucket} {instant : Instant}
    (started : hour.start ≤ instant) (unfinished : instant < hour.endInstant) :
    containing instant = hour := by
  apply eq_of_index_eq
  rw [index_containing]
  rw [Instant.le_iff, seconds_start] at started
  unfold endInstant at unfinished
  split at unfinished
  · rename_i later next
    have position := next?_eq_some_iff.mp next
    rw [Instant.lt_iff, seconds_start, nanos_start] at unfinished
    omega
  · -- The last hour ends with the last second.
    rename_i atEnd
    have position := ofIndex?_eq_none_iff.mp atEnd
    have notBefore := hour.index_ge
    have notAfter := hour.index_le
    have ends := instant.seconds_le
    simp only [greatestSecond, leastIndex, greatestIndex] at *
    omega

theorem exists_next?_of_le {hour last later : HourBucket} (notAfter : hour ≤ last)
    (next : last.next? = some later) : ∃ following, hour.next? = some following := by
  have position := next?_eq_some_iff.mp next
  have laterLe := later.index_le
  have hourGe := hour.index_ge
  change hour.index ≤ last.index at notAfter
  exact ⟨⟨hour.index + 1, by omega, by omega⟩, next?_eq_some_iff.mpr rfl⟩

/-- An instant of an hour that has a later one lies between the ends of the
hour. -/
theorem within_containing {later : HourBucket} {instant : Instant}
    (next : (containing instant).next? = some later) :
    (containing instant).start ≤ instant ∧ instant < (containing instant).endInstant := by
  have position := next?_eq_some_iff.mp next
  have isEnd : (containing instant).endInstant = later.start := by
    rw [endInstant, next]
  rw [isEnd, Instant.le_iff, Instant.lt_iff, seconds_start, nanos_start, seconds_start,
    nanos_start]
  rw [index_containing] at position ⊢
  omega

/-- Every instant of an hour that has a later one lies between its ends.  Only
the end of the last hour of all is an instant of the hour itself. -/
theorem containing_eq_iff {hour later : HourBucket} {instant : Instant}
    (next : hour.next? = some later) :
    containing instant = hour ↔ hour.start ≤ instant ∧ instant < hour.endInstant := by
  refine ⟨?_, fun within => containing_eq_of_within within.1 within.2⟩
  rintro rfl
  exact within_containing next

/-- An instant of an hour that has a later one lies between the ends of no other
hour. -/
theorem containing_eq_iff_of_next? {hour later : HourBucket} {instant : Instant}
    (next : (containing instant).next? = some later) :
    containing instant = hour ↔ hour.start ≤ instant ∧ instant < hour.endInstant := by
  refine ⟨?_, fun within => containing_eq_of_within within.1 within.2⟩
  rintro rfl
  exact within_containing next

/-- The hour of an instant begins where its minute, its second and its fraction
of a second are cut off. -/
theorem fields_start_containing (instant : Instant) :
    (containing instant).start.fields =
      { instant.fields with minute := 0, second := 0, nanos := 0 } := by
  have sameDate : (containing instant).start.date = instant.date := by
    unfold Instant.date
    rw [seconds_start, index_containing]
    congr 1
    omega
  simp only [Instant.fields, Instant.secondOfDay, sameDate, seconds_start, nanos_start,
    index_containing, ClockFields.mk.injEq, true_and, and_true]
  refine ⟨by omega, by omega, by omega⟩

end HourBucket

end MarketStats
