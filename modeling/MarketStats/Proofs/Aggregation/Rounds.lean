import MarketStats.Proofs.Aggregation.Run

/-!
# The rounds of a walk

A walk goes through the hours of the recent window and then, as long as it finds
hours without a row, through older ones.  No counter limits the second part.  It
ends because every round goes back by one hour and the project has a first hour:
a walk that may make one round more than the project has hours is never cut
short.
-/

namespace MarketStats

namespace Operation

variable (scope : VolumeScope) (cancelled : Cancellation) (floor : HourBucket)

/-- Aggregate the hours of the recent window.  The hour in front of it is left
to go on with, unless the walk has ended before. -/
def walkWindow : (window : Nat) → HourBucket → PassProgress →
    Operation (PassProgress × Option HourBucket)
  | 0, hour, progress => pure (progress, some hour)
  | window + 1, hour, progress =>
      if hour < floor then
        pure (progress, none)
      else if cancelled progress then
        pure (progress.look, none)
      else do
        let _ ← aggregateHour scope hour
        match hour.previous? with
        | none => pure (progress.look.put, none)
        | some earlier => walkWindow window earlier progress.look.put

/-- Aggregate older hours up to the first one that has a row, in so many rounds
at most.  There is no result if the walk has not ended by then. -/
def walkRounds? : (rounds : Nat) → HourBucket → PassProgress → Operation (Option PassProgress)
  | 0, _, _ => pure none
  | rounds + 1, hour, progress =>
      if hour < floor then
        pure (some progress)
      else if cancelled progress then
        pure (some progress.look)
      else do
        if ← askMarket (.hasRow scope hour) then
          pure (some progress.look)
        else
          let _ ← aggregateHour scope hour
          match hour.previous? with
          | none => pure (some progress.look.put)
          | some earlier => walkRounds? rounds earlier progress.look.put

/-- Go on behind the recent window. -/
def walkOn? (rounds : Nat) : PassProgress × Option HourBucket → Operation (Option PassProgress)
  | (progress, none) => pure (some progress)
  | (progress, some hour) => walkRounds? scope cancelled floor rounds hour progress

/-- A walk with so many rounds behind the recent window at most. -/
def walkWithin? (settings : AggregationSettings) (cancelled : Cancellation)
    (now : Calendar.Instant) (scope : VolumeScope) (progress : PassProgress) (rounds : Nat) :
    Operation (Option PassProgress) := do
  let reached ← walkWindow scope cancelled settings.floor settings.recentWindowHours
    (HourBucket.containing now) progress
  walkOn? scope cancelled settings.floor rounds reached

variable {scope cancelled floor} {hour : HourBucket} {progress : PassProgress}

/-- The walk from an hour of the project looks whether it is cancelled, aggregates
the hour, and goes on from the hour before it, if there is one. -/
theorem walkFrom_of_reached (window : Nat) (reached : ¬ hour < floor) :
    walkFrom scope cancelled window (floor.span hour) hour progress =
      (if cancelled progress then
        pure progress.look
      else do
        if ← reachesFrontier scope window hour then
          pure progress.look
        else
          let _ ← aggregateHour scope hour
          match hour.previous? with
          | none => pure progress.look.put
          | some earlier =>
              walkFrom scope cancelled (window - 1) (floor.span earlier) earlier
                progress.look.put) := by
  have notOver : floor.span hour ≠ 0 := mt HourBucket.span_eq_zero_iff.mp reached
  obtain ⟨remaining, isSpan⟩ := Nat.exists_eq_succ_of_ne_zero notOver
  rw [isSpan, walkFrom]
  cases stepped : hour.previous? with
  | none => rfl
  | some earlier =>
      have shorter := HourBucket.span_previous (Int.not_lt.mp reached) stepped
      obtain rfl : remaining = floor.span earlier := by omega
      rfl

theorem walkFrom_of_passed (window : Nat) (passed : hour < floor) :
    walkFrom scope cancelled window (floor.span hour) hour progress = pure progress := by
  rw [HourBucket.span_eq_zero_iff.mpr passed, walkFrom]

/-- Enough rounds for all hours of the project end the walk. -/
theorem walkRounds?_eq {rounds : Nat} (enough : floor.span hour < rounds) :
    walkRounds? scope cancelled floor rounds hour progress =
      some <$> walkFrom scope cancelled 0 (floor.span hour) hour progress := by
  -- A round uses up one of the rounds and one of the hours, so there stay enough.
  induction rounds generalizing hour progress with
  | zero => exact absurd enough (Nat.not_lt_zero _)
  | succ rounds ih =>
      rw [walkRounds?]
      by_cases passed : hour < floor
      · rw [if_pos passed, walkFrom_of_passed 0 passed, map_pure]
      rw [if_neg passed, walkFrom_of_reached 0 passed]
      by_cases stopped : cancelled progress = true
      · rw [if_pos stopped, if_pos stopped, map_pure]
      rw [if_neg stopped, if_neg stopped, map_bind]
      refine bind_congr fun hasRow => ?_
      cases hasRow with
      | true => exact (map_pure _ _).symm
      | false =>
          simp only [Bool.false_eq_true, if_false, map_bind]
          refine bind_congr fun row => ?_
          cases stepped : hour.previous? with
          | none => exact (map_pure _ _).symm
          | some earlier =>
              have shorter := HourBucket.span_previous (Int.not_lt.mp passed) stepped
              exact ih (by omega)

/-- A walk over the recent window and behind it is the walk from its hour, when
there are rounds enough for the hours behind the window. -/
theorem walkWindow_bind_eq {rounds window : Nat} (enough : floor.span hour < window + rounds) :
    (walkWindow scope cancelled floor window hour progress >>=
        walkOn? scope cancelled floor rounds) =
      some <$> walkFrom scope cancelled window (floor.span hour) hour progress := by
  induction window generalizing hour progress with
  | zero =>
      rw [walkWindow, pure_bind, walkOn?]
      exact walkRounds?_eq (by omega)
  | succ window ih =>
      rw [walkWindow]
      by_cases passed : hour < floor
      · rw [if_pos passed, walkFrom_of_passed _ passed, pure_bind, map_pure, walkOn?]
      rw [if_neg passed, walkFrom_of_reached _ passed]
      by_cases stopped : cancelled progress = true
      · rw [if_pos stopped, if_pos stopped, pure_bind, map_pure, walkOn?]
      have recent : reachesFrontier scope (window + 1) hour = pure false := rfl
      rw [if_neg stopped, if_neg stopped, recent, pure_bind]
      simp only [Bool.false_eq_true, if_false, map_bind, bind_assoc]
      refine bind_congr fun row => ?_
      cases stepped : hour.previous? with
      | none => exact (pure_bind _ _).trans (map_pure _ _).symm
      | some earlier =>
          have shorter := HourBucket.span_previous (Int.not_lt.mp passed) stepped
          exact ih (by omega)

theorem walkWithin?_eq (settings : AggregationSettings) (cancelled : Cancellation)
    (now : Calendar.Instant) (scope : VolumeScope) (progress : PassProgress) {rounds : Nat}
    (enough : settings.floor.span (HourBucket.containing now) <
      settings.recentWindowHours + rounds) :
    walkWithin? settings cancelled now scope progress rounds =
      some <$> walk settings cancelled now scope progress :=
  walkWindow_bind_eq enough

/-- Going back some hours at once leads where as many single steps lead, as far
as the time is representable, and two such jumps make up one.  Every earlier hour
is reached by just as many steps as there are hours in between.  Hence a walk
ends within so many rounds, whenever it starts and wherever the project starts. -/
theorem steps_agree_and_walks_end :
    (∀ (hour : HourBucket) (hours : Nat),
      hour.hoursBefore? hours = HourBucket.stepsBack? hours hour ∧
        ((hour.hoursBefore? hours).isSome = true ↔
          Calendar.leastSecond ≤ hour.start.seconds - 3600 * hours) ∧
        ∀ earlier, hour.hoursBefore? hours = some earlier →
          earlier.start.seconds = hour.start.seconds - 3600 * hours ∧
            earlier.start.seconds % 3600 = 0 ∧ earlier.start.nanos = 0) ∧
      (∀ (hour : HourBucket) (first second : Nat),
        ((hour.hoursBefore? first).bind fun middle => middle.hoursBefore? second) =
          hour.hoursBefore? (first + second)) ∧
      (∀ earlier later : HourBucket,
        later.previous? = some earlier ↔ earlier.next? = some later) ∧
      (∀ earlier later : HourBucket, earlier ≤ later →
        ∃ steps : Nat, 3600 * (steps : Int) = later.start.seconds - earlier.start.seconds ∧
          ∀ other, HourBucket.stepsBack? other later = some earlier ↔ other = steps) ∧
      ∀ (settings : AggregationSettings) (cancelled : Cancellation) (now : Calendar.Instant)
          (scope : VolumeScope) (progress : PassProgress) (rounds : Nat),
        settings.floor.span (HourBucket.containing now) < settings.recentWindowHours + rounds →
          walkWithin? settings cancelled now scope progress rounds =
            some <$> walk settings cancelled now scope progress := by
  refine ⟨fun hour hours => ⟨(HourBucket.stepsBack?_eq_hoursBefore? hours hour).symm,
      HourBucket.isSome_hoursBefore?_iff, fun _ => HourBucket.start_of_hoursBefore?⟩,
    HourBucket.hoursBefore?_bind_hoursBefore?,
    fun _ _ => HourBucket.previous?_eq_some_iff_next?, ?_,
    fun settings cancelled now scope progress _ =>
      walkWithin?_eq settings cancelled now scope progress⟩
  intro earlier later ordered
  obtain ⟨steps, reached⟩ := HourBucket.exists_stepsBack?_eq_some ordered
  have distance := HourBucket.stepsBack?_eq_some_iff.mp reached
  refine ⟨steps, distance, fun other => ?_⟩
  rw [HourBucket.stepsBack?_eq_some_iff]
  omega

/-- From the start of 2024 there is an hour 25 hours earlier, reached by 25 steps,
but none four thousand million hours earlier.  A walk in the third hour of a
project ends within three rounds behind a window of one hour. -/
theorem steps_agree_and_walks_end_atNewYear :
    ∃ hour earlier : HourBucket, hour.key = 2024010100 ∧ earlier.key = 2023123023 ∧
      hour.hoursBefore? 25 = some earlier ∧
      earlier.start.seconds = hour.start.seconds - 3600 * 25 ∧
      (∀ other, HourBucket.stepsBack? other hour = some earlier → other = 25) ∧
      HourBucket.stepsBack? 4294967295 hour = none ∧
      walkWithin? (hourlySettings 1) .never (thirdHourPass []).now .global .start 3 =
        some <$> walk (hourlySettings 1) .never (thirdHourPass []).now .global .start := by
  obtain ⟨agree, -, -, distance, ends⟩ := steps_agree_and_walks_end
  let hour := HourBucket.containing .startOf2024
  let earlier : HourBucket := ⟨473327, by decide, by decide⟩
  have reached : hour.hoursBefore? 25 = some earlier := by decide
  have starts := ((agree hour 25).2.2 earlier reached).1
  have beyond : HourBucket.stepsBack? 4294967295 hour = none := by
    rw [← (agree hour 4294967295).1]
    decide
  obtain ⟨steps, -, isReached⟩ := distance earlier hour (by decide)
  have isSteps : 25 = steps := (isReached 25).mp (by rw [← (agree hour 25).1, reached])
  refine ⟨hour, earlier, by decide +kernel, by decide +kernel, reached, starts, ?_, beyond,
    ends _ _ _ _ _ 3 (by decide)⟩
  intro other reachedByOther
  exact ((isReached other).mp reachedByOther).trans isSteps.symm

end Operation

end MarketStats
