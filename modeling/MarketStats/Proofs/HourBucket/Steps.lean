import MarketStats.HourBucket

/-!
# Steps from hour to hour

Going back some hours at once is the same as going back hour by hour, as far as
the hours are representable.  One hour is reached from a later one by as many
steps as there are hours between them.
-/

namespace MarketStats

open Calendar

namespace HourBucket

/-- Go back hour by hour, if all the hours on the way are representable. -/
def stepsBack? : Nat → HourBucket → Option HourBucket
  | 0, hour => some hour
  | steps + 1, hour => hour.previous?.bind (stepsBack? steps)

variable {hour earlier later : HourBucket} {hours : Nat}

theorem hoursBefore?_eq_some_iff :
    later.hoursBefore? hours = some earlier ↔ earlier.index = later.index - hours :=
  ofIndex?_eq_some_iff

@[simp]
theorem hoursBefore?_zero (hour : HourBucket) : hour.hoursBefore? 0 = some hour :=
  hoursBefore?_eq_some_iff.mpr (by omega)

theorem hoursBefore?_eq_none_iff :
    hour.hoursBefore? hours = none ↔ hour.index - hours < leastIndex := by
  have indexLe := hour.index_le
  rw [hoursBefore?, ofIndex?_eq_none_iff]
  omega

/-- Going back twice is going back by both numbers of hours together. -/
theorem hoursBefore?_bind_hoursBefore? (hour : HourBucket) (first second : Nat) :
    ((hour.hoursBefore? first).bind fun middle => middle.hoursBefore? second) =
      hour.hoursBefore? (first + second) := by
  cases reached : hour.hoursBefore? first with
  | none =>
      have behind := hoursBefore?_eq_none_iff.mp reached
      rw [Option.bind_none]
      exact (hoursBefore?_eq_none_iff.mpr (by omega)).symm
  | some middle =>
      have position := hoursBefore?_eq_some_iff.mp reached
      rw [Option.bind_some, hoursBefore?, hoursBefore?, position]
      congr 1
      omega

theorem stepsBack?_eq_hoursBefore? (steps : Nat) (hour : HourBucket) :
    stepsBack? steps hour = hour.hoursBefore? steps := by
  induction steps generalizing hour with
  | zero => exact (hoursBefore?_zero hour).symm
  | succ steps ih =>
      have oneByOne : stepsBack? steps = fun middle => middle.hoursBefore? steps := funext ih
      rw [stepsBack?, oneByOne, previous?, hoursBefore?_bind_hoursBefore?, Nat.add_comm]

/-- The hour some hours earlier starts that much earlier, on the full hour. -/
theorem start_of_hoursBefore? (reached : later.hoursBefore? hours = some earlier) :
    earlier.start.seconds = later.start.seconds - 3600 * hours ∧
      earlier.start.seconds % 3600 = 0 ∧ earlier.start.nanos = 0 := by
  have position := hoursBefore?_eq_some_iff.mp reached
  rw [seconds_start, seconds_start, nanos_start]
  exact ⟨by omega, by omega, rfl⟩

/-- There is an hour some hours earlier as long as its start is representable. -/
theorem isSome_hoursBefore?_iff :
    (hour.hoursBefore? hours).isSome = true ↔ leastSecond ≤ hour.start.seconds - 3600 * hours := by
  rw [Option.isSome_iff_ne_none, Ne, hoursBefore?_eq_none_iff, seconds_start]
  simp only [leastIndex, leastSecond]
  omega

theorem previous?_eq_some_iff_next? :
    later.previous? = some earlier ↔ earlier.next? = some later := by
  rw [previous?_eq_some_iff, next?_eq_some_iff]
  omega

/-- As many steps lead back from one hour to another as there are hours between
their starts. -/
theorem stepsBack?_eq_some_iff :
    stepsBack? hours later = some earlier ↔
      3600 * (hours : Int) = later.start.seconds - earlier.start.seconds := by
  rw [stepsBack?_eq_hoursBefore?, hoursBefore?_eq_some_iff, seconds_start, seconds_start]
  omega

theorem exists_stepsBack?_eq_some (ordered : earlier ≤ later) :
    ∃ steps, stepsBack? steps later = some earlier := by
  change earlier.index ≤ later.index at ordered
  refine ⟨(later.index - earlier.index).toNat, stepsBack?_eq_some_iff.mpr ?_⟩
  rw [seconds_start, seconds_start]
  omega

end HourBucket

end MarketStats
