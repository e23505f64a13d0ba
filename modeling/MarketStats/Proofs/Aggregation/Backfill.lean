import MarketStats.Proofs.Aggregation.Run

/-!
# Filling in the hours behind a pass that broke off

A pass that breaks off leaves rows for the latest hours and none for the hours
before.  The next pass takes such a row for the end of its own walk once the
row lies behind the recent window, and then the hours in front of it are never
looked at again.  So the hours that were left behind are filled in exactly if
every pass of the run finds them while the rows above them are still recent.
-/

namespace MarketStats

namespace Marketplace

/-- There is a row for every hour from one to another. -/
def IsFilled (market : Marketplace) (scope : VolumeScope) (first last : HourBucket) : Prop :=
  ∀ hour : HourBucket, first ≤ hour → hour ≤ last → (market.row? scope hour).isSome = true

/-- An hour without a row lies in front of one that has a row. -/
structure HasGap (market : Marketplace) (scope : VolumeScope) (missing present : HourBucket) :
    Prop where
  ordered : missing < present
  missing : market.row? scope missing = none
  present : (market.row? scope present).isSome = true

/-- Behind a gap that starts in the project, all rows lie in the recent window
of a pass. -/
def GapsAreRecent (market : Marketplace) (settings : AggregationSettings) (scope : VolumeScope)
    (last : HourBucket) : Prop :=
  ∀ missing present : HourBucket, settings.floor ≤ missing →
    market.HasGap scope missing present →
      last.index < present.index + settings.recentWindowHours

variable {scope : VolumeScope} {window : Nat} {floor last missing present : HourBucket}
variable {wanted unbroken : Prop} {before after : Marketplace}

/-- A pass does not fill in a gap in front of a row behind its recent window. -/
theorem HasGap.of_passedOver (gap : before.HasGap scope missing present)
    (behindWindow : present.index + window ≤ last.index)
    (passed : PassedOver scope window floor last wanted unbroken before after) :
    after.HasGap scope missing present := by
  obtain ⟨low, walked, -, -⟩ := passed
  have order := gap.ordered
  change missing.index < present.index at order
  have above : present.index < low := by
    apply Int.not_le.mp
    intro reached
    have absent := walked.filled present reached behindWindow
    have found := gap.present
    rw [absent] at found
    cases found
  refine ⟨gap.ordered, ?_, ?_⟩
  · rw [walked.kept missing (by omega)]
    exact gap.missing
  · rw [walked.kept present (by omega)]
    exact gap.present

end Marketplace

namespace Deployment

/-- At every pass of a run, the rows of a scope above a gap are still recent. -/
def FillsInTime (settings : AggregationSettings) (scope : VolumeScope) :
    Deployment → List MarketStep → Prop
  | _, [] => True
  | deployment, step :: rest =>
      (∀ planned, step = .pass planned →
          deployment.market.GapsAreRecent settings scope planned.hour) ∧
        FillsInTime settings scope (deployment.afterStep settings step) rest

variable {settings : AggregationSettings} {scope : VolumeScope} {missing present : HourBucket}

theorem fillsInTime_append {deployment : Deployment} {first second : List MarketStep} :
    deployment.FillsInTime settings scope (first ++ second) ↔
      deployment.FillsInTime settings scope first ∧
        (deployment.afterSteps settings first).FillsInTime settings scope second := by
  induction first generalizing deployment with
  | nil => simp [FillsInTime]
  | cons step rest ih => simp [FillsInTime, ih, and_assoc]

/-- A gap in front of a row behind the recent windows of all passes stays. -/
theorem hasGap_afterSteps {deployment : Deployment} {steps : List MarketStep}
    (gap : deployment.market.HasGap scope missing present)
    (behindWindows : ∀ moment ∈ steps.filterMap MarketStep.moment?,
      present.index + settings.recentWindowHours ≤ (HourBucket.containing moment).index) :
    (deployment.afterSteps settings steps).market.HasGap scope missing present := by
  induction steps generalizing deployment with
  | nil => exact gap
  | cons step rest ih =>
      rw [afterSteps_cons]
      cases step with
      | record transaction => exact ih ⟨gap.ordered, gap.missing, gap.present⟩ behindWindows
      | addToken collectionId token =>
          exact ih ⟨gap.ordered, gap.missing, gap.present⟩ behindWindows
      | pass planned =>
          obtain ⟨behindThis, behindLater⟩ := List.forall_mem_cons.mp behindWindows
          apply ih _ behindLater
          exact gap.of_passedOver behindThis (planned.passedOver settings deployment scope)

/-- If some pass of a run finds an old row above a gap, then the gap is there
also at the end of the run. -/
theorem exists_hasGap_of_not_fillsInTime {deployment : Deployment} {steps : List MarketStep}
    (ordered : MarketStep.Ordered steps)
    (late : ¬ deployment.FillsInTime settings scope steps) :
    ∃ missing present, settings.floor ≤ missing ∧
      (deployment.afterSteps settings steps).market.HasGap scope missing present ∧
      ∃ moment ∈ steps.filterMap MarketStep.moment?,
        present.index + settings.recentWindowHours ≤ (HourBucket.containing moment).index := by
  induction steps generalizing deployment with
  | nil => exact absurd trivial late
  | cons step rest ih =>
      have orderedRest : MarketStep.Ordered rest := by
        refine List.Pairwise.sublist ?_ ordered
        exact (List.sublist_cons_self step rest).filterMap _
      by_cases lateRest : (deployment.afterStep settings step).FillsInTime settings scope rest
      · -- The gap is found by the first step of the run.
        cases step with
        | record transaction => exact (late ⟨fun _ isPass => (nomatch isPass), lateRest⟩).elim
        | addToken collectionId token =>
            exact (late ⟨fun _ isPass => (nomatch isPass), lateRest⟩).elim
        | pass planned =>
            have old : ¬ deployment.market.GapsAreRecent settings scope planned.hour := by
              intro recent
              apply late
              refine ⟨?_, lateRest⟩
              rintro _ ⟨⟩
              exact recent
            simp only [Marketplace.GapsAreRecent, Classical.not_forall] at old
            obtain ⟨missing, present, inProject, gap, notRecent⟩ := old
            have behindThis : present.index + settings.recentWindowHours ≤ planned.hour.index :=
              Int.not_lt.mp notRecent
            refine ⟨missing, present, inProject, ?_, planned.now, List.mem_cons_self, behindThis⟩
            apply hasGap_afterSteps gap
            intro moment member
            rcases List.mem_cons.mp member with rfl | later
            · exact behindThis
            · have notEarlier : planned.hour.index ≤ (HourBucket.containing moment).index :=
                HourBucket.containing_mono ((List.pairwise_cons.mp ordered).1 moment later)
              omega
      · obtain ⟨missing, present, inProject, gap, moment, member, behind⟩ := ih orderedRest lateRest
        refine ⟨missing, present, inProject, gap, moment, ?_, behind⟩
        cases step with
        | pass planned => exact List.mem_cons_of_mem _ member
        | record transaction => exact member
        | addToken collectionId token => exact member

/-- A pass that neither fails nor is cancelled fills in all hours of a scope up
to its own one, if the rows above the gaps are recent. -/
theorem isFilled_of_gapsAreRecent {planned : PlannedPass} {deployment : Deployment}
    (uncancelled : planned.cancelled = .never)
    (succeeded : (planned.runOn settings deployment).1.isOk = true)
    (covered : scope ∈ settings.scopes deployment.market)
    (recent : deployment.market.GapsAreRecent settings scope planned.hour) :
    (planned.runOn settings deployment).2.market.IsFilled scope settings.floor planned.hour := by
  intro hour notBefore notAfter
  change settings.floor.index ≤ hour.index at notBefore
  change hour.index ≤ planned.hour.index at notAfter
  obtain ⟨low, walked, -, ends⟩ := planned.passedOver settings deployment scope
  have upToDate (above : low ≤ hour.index) :
      ((planned.runOn settings deployment).2.market.row? scope hour).isSome = true := by
    obtain ⟨row, found, -⟩ := walked.rewritten hour above notAfter
    rw [found]
    rfl
  rcases ends covered ⟨succeeded, uncancelled⟩ with atFloor | ⟨frontier, next, behindWindow, found⟩
  · exact upToDate (by omega)
  · by_cases above : low ≤ hour.index
    · exact upToDate above
    · rw [walked.kept hour (by omega), Option.isSome_iff_ne_none]
      intro absent
      by_cases isFrontier : hour = frontier
      · rw [isFrontier] at absent
        rw [absent] at found
        cases found
      · have different : hour.index ≠ frontier.index :=
          fun same => isFrontier (HourBucket.eq_of_index_eq same)
        have below : hour < frontier := by
          change hour.index < frontier.index
          omega
        have inWindow := recent hour frontier notBefore ⟨below, absent, found⟩
        omega

/-- In a run with failures and cancellations, a pass that neither fails nor is
cancelled leaves a row for every hour of the project exactly if every pass up
to it found the rows above the gaps in its recent window. -/
theorem isFilled_iff_fillsInTime {start : Deployment} {steps : List MarketStep}
    {final : PlannedPass} (ordered : MarketStep.Ordered (steps ++ [.pass final]))
    (uncancelled : final.cancelled = .never)
    (succeeded : (final.runOn settings (start.afterSteps settings steps)).1.isOk = true)
    (covered : scope ∈ settings.scopes (start.afterSteps settings steps).market) :
    (start.afterSteps settings (steps ++ [.pass final])).market.IsFilled scope settings.floor
        final.hour ↔
      start.FillsInTime settings scope (steps ++ [.pass final]) := by
  constructor
  · intro filled
    apply Classical.byContradiction
    intro late
    obtain ⟨missing, present, inProject, gap, moment, member, behind⟩ :=
      exists_hasGap_of_not_fillsInTime ordered late
    have notAfter : moment ≤ final.now := by
      simp only [List.filterMap_append, List.mem_append] at member
      rcases member with earlier | isFinal
      · have pairs := ordered
        simp only [MarketStep.Ordered, List.filterMap_append, List.pairwise_append] at pairs
        exact pairs.2.2 moment earlier final.now List.mem_cons_self
      · rw [List.mem_singleton.mp isFinal]
        exact Calendar.Instant.le_iff.mpr (.inr ⟨rfl, Nat.le_refl _⟩)
    have lastHour : (HourBucket.containing moment).index ≤ final.hour.index :=
      HourBucket.containing_mono notAfter
    have order := gap.ordered
    change missing.index < present.index at order
    have found := filled missing inProject (by change missing.index ≤ final.hour.index; omega)
    rw [gap.missing] at found
    cases found
  · intro inTime
    rw [afterSteps_append]
    apply isFilled_of_gapsAreRecent uncancelled succeeded covered
    exact (fillsInTime_append.mp inTime).2.1 final rfl

def thirdRowOutage : Outage :=
  { endpoint := .putRow, labelStart := "", skip := 2, remaining := some 1 }

theorem isFilled_iff_fillsInTime_thirdHour :
    ((empty 0 0 0 0 none).afterSteps (hourlySettings 2)
        ([.pass (thirdHourPass [thirdRowOutage])] ++ [.pass (thirdHourPass [])])).market.IsFilled
        .global (hourlySettings 2).floor (thirdHourPass []).hour ↔
      (empty 0 0 0 0 none).FillsInTime (hourlySettings 2) .global
        ([.pass (thirdHourPass [thirdRowOutage])] ++ [.pass (thirdHourPass [])]) :=
  isFilled_iff_fillsInTime (by decide) rfl (by decide +kernel) (by decide)

/-- Without the condition the hours behind a pass that broke off may stay
without rows, even when the table started empty and the next pass completes. -/
theorem not_isFilled_behind_broken_pass :
    ¬ ∀ (settings : AggregationSettings) (scope : VolumeScope) (start : Deployment)
        (steps : List MarketStep) (final : PlannedPass),
      (∀ hour, start.market.row? scope hour = none) →
      MarketStep.Ordered (steps ++ [.pass final]) →
      final.cancelled = .never →
      (final.runOn settings (start.afterSteps settings steps)).1.isOk = true →
      scope ∈ settings.scopes (start.afterSteps settings steps).market →
      (start.afterSteps settings (steps ++ [.pass final])).market.IsFilled scope settings.floor
        final.hour := by
  intro claimed
  have filled := claimed (hourlySettings 1) .global (empty 0 0 0 0 none)
    [.pass (thirdHourPass [thirdRowOutage])] (thirdHourPass []) (fun _ => rfl) (by decide) rfl
    (by decide +kernel) (by decide)
  have first := filled (hourlySettings 1).floor (by decide) (by decide)
  exact absurd first (by decide +kernel)

end Deployment

end MarketStats
