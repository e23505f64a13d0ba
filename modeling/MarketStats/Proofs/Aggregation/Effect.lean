import MarketStats.Proofs.Aggregation.Run

/-!
# The exact effect of walks and passes

What a walk does is known beforehand as far as it comes: which rows it puts and
in which order, what they hold, and how many it reports.  Nothing but a failing
request or a cancellation keeps it from putting all of them.
-/

namespace MarketStats

namespace Operation

open Marketplace

theorem exists_walks (settings : AggregationSettings) (now : Calendar.Instant)
    (before : Deployment) (cancelled : Cancellation) (scope : VolumeScope)
    (progress : PassProgress) :
    ∃ written, Walks scope cancelled settings.recentWindowHours settings.floor
      (HourBucket.containing now) progress before
      ((walk settings cancelled now scope progress).runOn before).2
      ((walk settings cancelled now scope progress).runOn before).1 written :=
  exists_walks_of_walkFrom rfl rfl

/-- A walk that completes without being cancelled puts the rows of the hours
that are due, and no others, and counts them; it completes unless a request
fails.  A walk that is broken off or cancelled has put the rows of the first of
these hours.  A pass is made up of such walks, and reports what became of
them. -/
theorem walk_puts_dueHours (settings : AggregationSettings) (now : Calendar.Instant)
    (before : Deployment) :
    (∀ scope progress reached after,
      (walk settings .never now scope progress).runOn before = (.ok reached, after) →
        before.market.Rewrites scope
            (before.market.dueHours scope settings.recentWindowHours settings.floor
              (HourBucket.containing now))
            after.market ∧
          reached.rows = progress.rows +
            (before.market.dueHours scope settings.recentWindowHours settings.floor
              (HourBucket.containing now)).length) ∧
      (∀ cancelled scope progress, before.outages = [] →
        (∀ hour ∈ before.market.dueHours scope settings.recentWindowHours settings.floor
              (HourBucket.containing now), ∀ kind,
          (before.market.volumeInRange? scope hour.start hour.endInstant kind).isSome = true) →
        ((walk settings cancelled now scope progress).runOn before).1.isOk = true) ∧
      (∀ cancelled scope progress, ∃ written,
        Walks scope cancelled settings.recentWindowHours settings.floor
          (HourBucket.containing now) progress before
          ((walk settings cancelled now scope progress).runOn before).2
          ((walk settings cancelled now scope progress).runOn before).1 written) ∧
      ∀ cancelled, ∃ written,
        Passes (settings.scopes before.market) cancelled settings.recentWindowHours settings.floor
          (HourBucket.containing now) 0 before
          ((runPass settings cancelled now).runOn before).2
          ((runPass settings cancelled now).runOn before).1 written := by
  refine ⟨?_, ?_, exists_walks settings now before, fun cancelled => exists_passes_of_runPass rfl⟩
  · intro scope progress reached after ran
    obtain ⟨written, walks⟩ := exists_walks settings now before .never scope progress
    rw [ran] at walks
    obtain ⟨counted, -, ends⟩ := walks.completed reached rfl
    have all := ends.resolve_right nofun
    rw [← all]
    exact ⟨walks.rewrites, counted⟩
  · intro cancelled scope progress clear summable
    obtain ⟨written, walks⟩ := exists_walks settings now before cancelled scope progress
    exact walks.isOk clear summable

/-- A project whose first hour has a row, and with a sale in its third hour. -/
def withFirstRow : Deployment :=
  { Deployment.empty 0 0 0 0 none with
    market := (Marketplace.empty.record thirdHourSale).putRow
      { scope := .global
        hour := (hourlySettings 1).floor
        buyVolume := .zero
        listVolume := .zero
        withdrawVolume := .zero } }

/-- In the third hour of the project only two rows are put, of which the one of
this hour holds the sale. -/
theorem walk_puts_dueHours_behind_firstRow :
    ∃ reached after,
      (walk (hourlySettings 1) .never (thirdHourPass []).now .global .start).runOn withFirstRow =
          (.ok reached, after) ∧
        (withFirstRow.market.dueHours .global 1 (hourlySettings 1).floor
          (thirdHourPass []).hour).map HourBucket.key = [2024050102, 2024050101] ∧
        withFirstRow.market.Rewrites .global
          (withFirstRow.market.dueHours .global 1 (hourlySettings 1).floor (thirdHourPass []).hour)
          after.market ∧
        (after.market.row? .global (thirdHourPass []).hour).map HourlyVolume.buyVolume =
          some thirdHourSale.price ∧
        reached.rows = 2 := by
  obtain ⟨completed, completes, -, -⟩ :=
    walk_puts_dueHours (hourlySettings 1) (thirdHourPass []).now withFirstRow
  have keys : (withFirstRow.market.dueHours .global 1 (hourlySettings 1).floor
      (thirdHourPass []).hour).map HourBucket.key = [2024050102, 2024050101] := by
    decide +kernel
  have summable : ∀ kind, ∀ hour ∈ withFirstRow.market.dueHours .global 1
      (hourlySettings 1).floor (thirdHourPass []).hour,
      (withFirstRow.market.volumeInRange? .global hour.start hour.endInstant kind).isSome =
        true := by
    rintro (_ | _ | _)
    all_goals decide +kernel
  have succeeded := completes .never .global .start rfl fun hour isDue kind =>
    summable kind hour isDue
  have sold : (((walk (hourlySettings 1) .never (thirdHourPass []).now .global .start).runOn
      withFirstRow).2.market.row? .global (thirdHourPass []).hour).map HourlyVolume.buyVolume =
        some thirdHourSale.price := by
    decide +kernel
  cases ran : (walk (hourlySettings 1) .never (thirdHourPass []).now .global .start).runOn
      withFirstRow with
  | mk outcome after =>
      rw [ran] at succeeded sold
      cases outcome with
      | error failure => exact nomatch succeeded
      | ok reached =>
          obtain ⟨rewrites, counted⟩ := completed _ _ reached after ran
          refine ⟨reached, after, rfl, keys, rewrites, sold, ?_⟩
          have two := congrArg List.length keys
          rw [List.length_map] at two
          exact counted.trans (two ▸ Nat.zero_add _)

end Operation

end MarketStats
