import MarketStats.Proofs.Decimal.Score
import MarketStats.Proofs.Statistics.Served

/-!
# Scores and statistics in step

A recomputation sets the four scores of a collection one after the other, and
publishes its statistics last.  A score is therefore the one of the statistics
that are served, unless a later recomputation broke off behind setting it.
-/

namespace MarketStats

namespace LeaderboardDimension

theorem rank_score_withoutZeroSigns (dimension : LeaderboardDimension)
    (statistics : CollectionStatistics) :
    (dimension.score statistics.withoutZeroSigns).rank = (dimension.score statistics).rank := by
  cases dimension with
  | items => rfl
  | owners => rfl
  | floorPrice => exact Decimal.rank_score_withoutZeroSign statistics.floorPrice
  | volume => exact Decimal.rank_score_withoutZeroSign statistics.volumeTraded

end LeaderboardDimension

namespace ServiceNote

open Deployment Operation

/-- The statistics of the latest recomputation that broke off behind setting
the score along a dimension, among those that came later than the latest
recomputation that succeeded. -/
def brokenOff? (settings : LeaseSettings) (tokenId : String) (dimension : LeaderboardDimension) :
    List ServiceNote → Option CollectionStatistics
  | [] => none
  | .called other before :: earlier =>
      if other = tokenId then
        match publication? settings tokenId before, scoring? settings tokenId before with
        | none, some (statistics, dimensions) =>
            if dimension ∈ dimensions then some statistics
            else brokenOff? settings tokenId dimension earlier
        | none, none => brokenOff? settings tokenId dimension earlier
        | some _, _ => none
      else
        brokenOff? settings tokenId dimension earlier
  | .invalidated _ :: earlier => brokenOff? settings tokenId dimension earlier

variable {settings : LeaseSettings} {tokenId : String} {notes : List ServiceNote}
variable {statistics : CollectionStatistics} {before : Deployment}

theorem AreAccurate.runOn_cachedStatistics_withoutOutages {deployment : Deployment}
    (accurate : AreAccurate settings notes deployment) (tokenId : String) :
    ((cachedStatistics tokenId).runOn deployment.withoutOutages).1 =
      match published? settings tokenId notes with
      | some (statistics, _) => .ok statistics.withoutZeroSigns
      | none => .error (.error (.notFound (statisticsKey tokenId))) := by
  have same : SamePublished deployment deployment.withoutOutages :=
    .of_shared_eq (Nat.le_refl _) rfl
  exact (accurate.of_samePublished same).runOn_cachedStatistics (isStruckBy_of_no_outages rfl _)

/-- The latest statistics whose score was set are the published ones, or those
of a later recomputation that broke off. -/
theorem scored?_of_published?
    (published : published? settings tokenId notes = some (statistics, before))
    (dimension : LeaderboardDimension) :
    scored? settings tokenId dimension notes =
      some ((brokenOff? settings tokenId dimension notes).getD statistics) := by
  induction notes with
  | nil => cases published
  | cons note earlier ih =>
      cases note with
      | called other deployment =>
          unfold published? at published
          unfold scored? brokenOff?
          by_cases same : other = tokenId
          · rw [if_pos same] at published ⊢
            rw [if_pos same]
            cases publication : publication? settings tokenId deployment with
            | some latest =>
                rw [publication] at published
                cases published
                rw [scoring?_of_publication? publication]
                exact if_pos dimension.mem_all
            | none =>
                rw [publication] at published
                have scoredEarlier := ih published
                cases scoring? settings tokenId deployment with
                | none => exact scoredEarlier
                | some scoring =>
                    dsimp only
                    split
                    · rfl
                    · exact scoredEarlier
          · rw [if_neg same] at published ⊢
            rw [if_neg same]
            exact ih published
      | invalidated other =>
          unfold published? at published
          split at published
          · cases published
          · exact ih published

end ServiceNote

namespace ServiceHistory

open Operation ServiceNote

/-- A collection whose statistics are present has a score along every
dimension.  It ranks as these statistics do, unless a later recomputation broke
off behind setting the score; then the score is the one of the latest such
recomputation. -/
theorem StartsEmpty.score?_of_present {settings : LeaseSettings} {history : ServiceHistory}
    (startsEmpty : history.StartsEmpty settings) {tokenId : String} {served : CollectionStatistics}
    (present :
      ((cachedStatistics tokenId).runOn history.current.withoutOutages).1 = .ok served)
    (dimension : LeaderboardDimension) :
    ∃ score, history.current.score? dimension tokenId = some score ∧
      match brokenOff? settings tokenId dimension history.notes with
      | none => score.rank = (dimension.score served).rank
      | some statistics => score = dimension.score statistics := by
  have accurate := startsEmpty.areAccurate
  have answer := accurate.runOn_cachedStatistics_withoutOutages tokenId
  rw [present] at answer
  rcases published : published? settings tokenId history.notes with _ | ⟨statistics, before⟩
  · rw [published] at answer
    cases answer
  · rw [published] at answer
    cases answer
    have score := accurate.score?_eq dimension tokenId
    rw [scored?_of_published? published] at score
    refine ⟨_, score, ?_⟩
    cases brokenOff? settings tokenId dimension history.notes with
    | none => exact (dimension.rank_score_withoutZeroSigns statistics).symm
    | some later => rfl

/-- The statistics without items are still present when the score along the
items has been set to one. -/
theorem present_brokenOff :
    ∃ served, ((cachedStatistics "ALPHA").runOn brokenOff.current.withoutOutages).1 = .ok served ∧
      served.itemsTotal = 0 := by
  have answer :=
    brokenOff_startsEmpty.areAccurate.runOn_cachedStatistics_withoutOutages "ALPHA"
  obtain ⟨statistics, before, published, noItems⟩ := exists_published?_brokenOff
  rw [published] at answer
  exact ⟨statistics.withoutZeroSigns, answer, noItems⟩

/-- The score along the volume is still the one of the statistics that are
present; the recomputation broke off in front of it. -/
theorem StartsEmpty.score?_of_present_brokenOff :
    brokenOff.StartsEmpty .quarterHour ∧
      ∃ served score,
        ((cachedStatistics "ALPHA").runOn brokenOff.current.withoutOutages).1 = .ok served ∧
          brokenOff.current.score? .volume "ALPHA" = some score ∧
          score.rank = (LeaderboardDimension.volume.score served).rank := by
  obtain ⟨served, present, -⟩ := present_brokenOff
  have notReached : (brokenOff? .quarterHour "ALPHA" .volume brokenOff.notes).isNone = true := by
    decide +kernel
  have inStepUnless := brokenOff_startsEmpty.score?_of_present present .volume
  rw [Option.isNone_iff_eq_none.mp notReached] at inStepUnless
  obtain ⟨score, scored, inStep⟩ := inStepUnless
  exact ⟨brokenOff_startsEmpty, served, score, present, scored, inStep⟩

/-- A collection need not rank as its statistics do: a recomputation has
broken off between two scores. -/
theorem rank_score?_ne_brokenOff :
    ∃ served score,
      ((cachedStatistics "ALPHA").runOn brokenOff.current.withoutOutages).1 = .ok served ∧
        brokenOff.current.score? .items "ALPHA" = some score ∧
        score.rank ≠ (LeaderboardDimension.items.score served).rank := by
  obtain ⟨served, present, noItems⟩ := present_brokenOff
  have scored : brokenOff.current.score? .items "ALPHA" = some (Double.ofNat 1) := by
    decide +kernel
  refine ⟨served, _, present, scored, ?_⟩
  rw [LeaderboardDimension.score, noItems]
  decide +kernel

end ServiceHistory

end MarketStats
