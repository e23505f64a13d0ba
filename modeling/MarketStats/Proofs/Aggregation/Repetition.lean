import MarketStats.Proofs.Aggregation.Effect
import MarketStats.Proofs.Statistics.Computation

/-!
# Repeating a pass

Behind a pass every walk meets a row or the start of the project as soon as it
has left the recent window.  A pass that is repeated as of the same instant
therefore puts the rows of the recent window alone, and these hold what they
held before.
-/

namespace MarketStats

namespace Marketplace

variable {market first second : Marketplace} {scope : VolumeScope} {window : Nat}
variable {floor last hour : HourBucket}

/-- Only one row can be up to date. -/
theorem IsUpToDate.row?_eq (earlier : first.IsUpToDate scope hour)
    (later : second.IsUpToDate scope hour) (same : second.transactions = first.transactions) :
    second.row? scope hour = first.row? scope hour := by
  obtain ⟨row, found, rfl, rfl, sums⟩ := earlier
  obtain ⟨other, foundOther, sameScope, sameHour, otherSums⟩ := later
  have volumes : ∀ kind, other.volume kind = row.volume kind := by
    intro kind
    have sum := sumsUp_iff.mp otherSums kind
    rw [sameScope, sameHour, volumeInRange?_of_transactions_eq same, sumsUp_iff.mp sums kind]
      at sum
    exact (Option.some.inj sum).symm
  have buys := volumes .buy
  have lists := volumes .list
  have withdraws := volumes .withdraw
  cases other
  cases row
  simp only [HourlyVolume.volume] at sameScope sameHour buys lists withdraws
  rw [found, foundOther, sameScope, sameHour, buys, lists, withdraws]

/-- When there is a row right behind the recent window, or the project starts
before, then only the hours of the window are due. -/
theorem length_dueHours_of_row_behind_window
    (present : ∀ hour : HourBucket, floor ≤ hour → hour.index + window = last.index →
      (market.row? scope hour).isSome = true) :
    (market.dueHours scope window floor last).length = min window (floor.span last) := by
  obtain ⟨members, bounded⟩ :=
    HourBucket.prefix_backTo (market.dueHours_prefix_backTo scope window floor last)
  have floorGe := floor.index_ge
  have lastLe := last.index_le
  have inProject : ((market.dueHours scope window floor last).length : Int) ≤
      max (last.index + 1 - floor.index) 0 := by
    omega
  have inWindow : (market.dueHours scope window floor last).length ≤ window := by
    refine Nat.not_lt.mp fun tooMany => ?_
    -- The hour right behind the window would be due in spite of its row.
    let behind : HourBucket := ⟨last.index - window, by omega, by omega⟩
    have position : behind.index = last.index - window := rfl
    have isDue : behind ∈ market.dueHours scope window floor last :=
      (members behind).mpr (by omega)
    have notBefore : floor ≤ behind := by
      change floor.index ≤ behind.index
      omega
    have found := present behind notBefore (by omega)
    rw [row?_eq_none_of_mem_dueHours isDue (by omega)] at found
    exact nomatch found
  have ends := market.endsProperly_dueHours scope window floor last
  simp only [HourBucket.span]
  rcases ends with atFloor | ⟨frontier, position, behindWindow, -⟩
  · omega
  · omega

end Marketplace

namespace Operation

open Marketplace

variable {settings : AggregationSettings} {cancelled : Cancellation} {now : Calendar.Instant}
variable {before after : Deployment} {summary : PassSummary}

namespace Passes

variable {scope : VolumeScope} {scopes : List VolumeScope} {window rows : Nat}
variable {floor last hour : HourBucket} {written : VolumeScope → List HourBucket}

/-- Behind a pass the hour right behind the recent window has a row. -/
theorem isSome_row?_behind_window
    (passes : Passes scopes .never window floor last rows before after (.ok summary) written)
    (wanted : scope ∈ scopes) (notBefore : floor ≤ hour)
    (behindWindow : hour.index + window = last.index) :
    (after.market.row? scope hour).isSome = true := by
  obtain ⟨-, -, all⟩ := passes.completed summary rfl
  have allDue := all rfl scope wanted
  by_cases isWritten : hour ∈ written scope
  · obtain ⟨row, found, -⟩ := passes.rewritten scope hour isWritten
    rw [found]
    rfl
  -- The walk has ended in front of this hour, so its row was there before.
  rw [passes.kept scope hour isWritten]
  rw [allDue] at isWritten
  obtain ⟨members, -⟩ := HourBucket.prefix_backTo
    (before.market.dueHours_prefix_backTo scope window floor last)
  rw [members] at isWritten
  change floor.index ≤ hour.index at notBefore
  rcases before.market.endsProperly_dueHours scope window floor last with
    atFloor | ⟨frontier, position, frontierBehind, present⟩
  · omega
  · have same : frontier = hour := HourBucket.eq_of_index_eq (by omega)
    rw [← same]
    exact present

/-- Behind a pass only the hours of the recent window are due. -/
theorem length_dueHours
    (passes : Passes scopes .never window floor last rows before after (.ok summary) written)
    (wanted : scope ∈ scopes) :
    (after.market.dueHours scope window floor last).length = min window (floor.span last) :=
  length_dueHours_of_row_behind_window fun _ notBefore behindWindow =>
    passes.isSome_row?_behind_window wanted notBefore behindWindow

/-- What is due behind a pass has been put by the pass. -/
theorem isUpToDate_of_due
    (passes : Passes scopes .never window floor last rows before after (.ok summary) written)
    (wanted : scope ∈ scopes) (isDue : hour ∈ after.market.dueHours scope window floor last) :
    after.market.IsUpToDate scope hour := by
  have ofProject := after.market.dueHours_prefix_backTo scope window floor last
  obtain ⟨notBefore, notAfter⟩ := HourBucket.mem_backTo_iff.mp (ofProject.subset isDue)
  have position := ((HourBucket.prefix_backTo ofProject).1 hour).mp isDue
  rw [passes.length_dueHours wanted] at position
  exact passes.isUpToDate_of_recent wanted notBefore notAfter (by omega)

variable {again final : Deployment} {outcome : Except Failure PassSummary}
variable {rewritten : VolumeScope → List HourBucket} {repeated : PassSummary}

/-- Behind a pass another one puts the same rows again, as far as it comes. -/
theorem row?_eq_of_repeated
    (passes : Passes scopes .never window floor last rows before after (.ok summary) written)
    (passesAgain : Passes scopes cancelled window floor last rows again final outcome rewritten)
    (sameMarket : again.market = after.market)
    (scope : VolumeScope) (hour : HourBucket) :
    final.market.row? scope hour = after.market.row? scope hour := by
  by_cases isRewritten : hour ∈ rewritten scope
  · have wanted : scope ∈ scopes := Classical.byContradiction fun unwanted => by
      rw [passesAgain.outside scope unwanted] at isRewritten
      exact nomatch isRewritten
    have isDue := (passesAgain.isPrefix scope).subset isRewritten
    rw [sameMarket] at isDue
    refine (passes.isUpToDate_of_due wanted isDue).row?_eq
      (passesAgain.rewritten scope hour isRewritten) ?_
    rw [passesAgain.transactions, sameMarket]
  · rw [passesAgain.kept scope hour isRewritten, sameMarket]

/-- Behind a pass another one puts as many rows in each scope as the recent
window has hours of the project. -/
theorem hours_of_repeated
    (passes : Passes scopes .never window floor last rows before after (.ok summary) written)
    (passesAgain : Passes scopes .never window floor last 0 again final (.ok repeated) rewritten)
    (sameMarket : again.market = after.market) :
    repeated.hours = scopes.length * min window (floor.span last) := by
  obtain ⟨reported, -, all⟩ := passesAgain.completed repeated rfl
  have lengths : ∀ scope ∈ scopes, (rewritten scope).length = min window (floor.span last) := by
    intro scope wanted
    rw [all rfl scope wanted, sameMarket]
    exact passes.length_dueHours wanted
  rw [reported, Nat.zero_add, List.map_congr_left lengths, List.map_const', List.sum_replicate_nat]

end Passes

/-- The sums over all hours that are due can be formed. -/
def Summable (settings : AggregationSettings) (last : HourBucket) (market : Marketplace)
    (scope : VolumeScope) : Prop :=
  ∀ hour ∈ market.dueHours scope settings.recentWindowHours settings.floor last, ∀ kind,
    (market.volumeInRange? scope hour.start hour.endInstant kind).isSome = true

/-- A walk over another scope makes no difference to the sums that are due. -/
theorem Summable.of_rewrites {last : HourBucket} {first second : Marketplace}
    {scope other : VolumeScope} {written : List HourBucket}
    (summable : Summable settings last first scope) (different : scope ≠ other)
    (rewrites : first.Rewrites other written second) : Summable settings last second scope := by
  intro hour isDue kind
  rw [volumeInRange?_of_transactions_eq rewrites.transactions]
  apply summable
  rwa [← dueHours_eq_of_rows_eq fun hour =>
    rewrites.kept scope hour fun both => different both.1]

theorem isOk_walkCollections {collectionIds : List Int64} (distinct : collectionIds.Nodup)
    (clear : before.outages = [])
    (summable : ∀ collectionId ∈ collectionIds,
      Summable settings (HourBucket.containing now) before.market (.collection collectionId))
    (scopes : Nat) (progress : PassProgress) :
    ((walkCollections settings cancelled now collectionIds scopes progress).runOn before).1.isOk =
      true := by
  induction collectionIds generalizing scopes progress before with
  | nil => rfl
  | cons collectionId rest ih =>
      obtain ⟨fresh, distinctRest⟩ := List.nodup_cons.mp distinct
      obtain ⟨summableHere, summableRest⟩ := List.forall_mem_cons.mp summable
      unfold walkCollections
      split
      · rfl
      rcases walked : (walk settings cancelled now (.collection collectionId) progress.look).runOn
          before with ⟨outcome, middle⟩
      obtain ⟨hours, walks⟩ := exists_walks_of_walkFrom rfl walked
      have succeeded := walks.isOk clear summableHere
      cases outcome with
      | error failure => cases succeeded
      | ok reached =>
          obtain ⟨-, answered, -⟩ := walks.completed reached rfl
          rw [runOn_bind_of_ok walked]
          refine ih distinctRest (answered.outages_eq_nil clear) (fun other listed => ?_) _ _
          refine (summableRest other listed).of_rewrites ?_ walks.rewrites
          rintro ⟨⟩
          exact fresh listed

/-- Without outages a pass completes if all sums can be formed that are due. -/
theorem isOk_runPass (clear : before.outages = [])
    (summable : ∀ scope ∈ settings.scopes before.market,
      Summable settings (HourBucket.containing now) before.market scope) :
    ((runPass settings cancelled now).runOn before).1.isOk = true := by
  obtain ⟨summableGlobal, summableCollections⟩ := List.forall_mem_cons.mp summable
  unfold runPass
  rcases walked : (walk settings cancelled now .global .start).runOn before with ⟨outcome, middle⟩
  obtain ⟨hours, walks⟩ := exists_walks_of_walkFrom rfl walked
  have succeeded := walks.isOk clear summableGlobal
  cases outcome with
  | error failure => cases succeeded
  | ok progress =>
      obtain ⟨-, answered, -⟩ := walks.completed progress rfl
      have clearMiddle := answered.outages_eq_nil clear
      rw [runOn_bind_of_ok walked]
      split
      · rename_i perCollection
        have listed : (askMarket .collectionIds).runOn middle = _ :=
          runOn_askMarket_of_clear clearMiddle rfl
        rw [runOn_bind_of_ok listed]
        refine isOk_walkCollections (nodup_collectionIds _)
          (Deployment.outages_afterRequest_of_no_outages clearMiddle _) ?_ _ _
        intro collectionId isListed
        rw [collectionIds_eq walks.rewrites.transactions walks.rewrites.tokens] at isListed
        have wanted : VolumeScope.collection collectionId ∈
            settings.collectionScopes before.market := by
          rw [AggregationSettings.collectionScopes, if_pos perCollection]
          exact List.mem_map_of_mem isListed
        have different : VolumeScope.collection collectionId ≠ .global := by
          rintro ⟨⟩
        exact (summableCollections _ wanted).of_rewrites different walks.rewrites
      · rfl

/-- The rows that a pass leaves behind stay as they are when the pass is repeated
as of the same instant, wherever the second pass ends.  If no request fails then
the second pass completes.  It walks over the same scopes, and in each of them it
puts only the rows of the recent window. -/
theorem rows_eq_behind_repeated_pass
    (ran : (runPass settings .never now).runOn before = (.ok summary, after)) :
    (∀ outages cancelled outcome last,
      (runPass settings cancelled now).runOn { after with outages } = (outcome, last) →
        ∀ scope hour, last.market.row? scope hour = after.market.row? scope hour) ∧
      (∀ outages repeated last,
        (runPass settings .never now).runOn { after with outages } = (.ok repeated, last) →
          repeated.scopes = (settings.scopes before.market).length ∧
            repeated.hours = (settings.scopes before.market).length *
              min settings.recentWindowHours
                (settings.floor.span (HourBucket.containing now))) ∧
      ((runPass settings .never now).runOn after.withoutOutages).1.isOk = true := by
  obtain ⟨written, passes⟩ := exists_passes_of_runPass ran
  have sameScopes : settings.scopes after.market = settings.scopes before.market :=
    settings.scopes_eq passes.transactions passes.tokens
  refine ⟨?_, ?_, ?_⟩
  · intro outages cancelled outcome last ranAgain
    obtain ⟨rewritten, passesAgain⟩ := exists_passes_of_runPass ranAgain
    rw [sameScopes] at passesAgain
    exact passes.row?_eq_of_repeated passesAgain rfl
  · intro outages repeated last ranAgain
    obtain ⟨rewritten, passesAgain⟩ := exists_passes_of_runPass ranAgain
    rw [sameScopes] at passesAgain
    refine ⟨?_, passes.hours_of_repeated passesAgain rfl⟩
    rw [length_scopes_of_runPass ranAgain, sameScopes]
  · refine isOk_runPass rfl fun scope wanted hour isDue kind => ?_
    obtain ⟨row, -, rfl, rfl, sums⟩ := passes.isUpToDate_of_due (sameScopes ▸ wanted) isDue
    exact Option.isSome_of_eq_some (Marketplace.sumsUp_iff.mp sums kind)

/-- In a project whose first hour has a row the first pass of the third hour puts
two rows, and the second pass puts one of them again. -/
theorem rows_eq_behind_repeated_pass_withFirstRow :
    ∃ after repeated last,
      (runPass (hourlySettings 1) .never (thirdHourPass []).now).runOn withFirstRow =
          (.ok { scopes := 1, hours := 2 }, after) ∧
        (runPass (hourlySettings 1) .never (thirdHourPass []).now).runOn after.withoutOutages =
          (.ok repeated, last) ∧
        (∀ scope hour, last.market.row? scope hour = after.market.row? scope hour) ∧
        repeated = { scopes := 1, hours := 1 } := by
  have first : ((runPass (hourlySettings 1) .never (thirdHourPass []).now).runOn
      withFirstRow).1.toOption = some { scopes := 1, hours := 2 } := by
    decide +kernel
  rcases ran : (runPass (hourlySettings 1) .never (thirdHourPass []).now).runOn withFirstRow with
    ⟨failure | summary, after⟩
  · rw [ran] at first
    exact nomatch first
  rw [ran] at first
  cases first
  obtain ⟨kept, counted, succeeds⟩ := rows_eq_behind_repeated_pass ran
  rcases ranAgain : (runPass (hourlySettings 1) .never (thirdHourPass []).now).runOn
      after.withoutOutages with ⟨failure | repeated, last⟩
  · rw [ranAgain] at succeeds
    exact nomatch succeeds
  obtain ⟨scopes, hours⟩ := counted [] repeated last ranAgain
  refine ⟨after, repeated, last, rfl, ranAgain, kept [] .never _ last ranAgain, ?_⟩
  cases repeated
  cases scopes
  cases hours
  rfl

end Operation

end MarketStats
