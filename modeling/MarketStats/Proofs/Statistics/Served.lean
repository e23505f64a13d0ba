import MarketStats.Proofs.Model.Transaction
import MarketStats.Proofs.Statistics.History

/-!
# The statistics that are served

Whoever reads the statistics of a collection gets what the latest recomputation
returned that succeeded, unless it was invalidated since.  A recomputation that
breaks off does not matter, wherever it does.  Only an amount of zero comes
back without its sign.
-/

namespace MarketStats

def LeaseSettings.quarterHour : LeaseSettings :=
  { claimLifetime := 900, batchSize := 100 }

namespace ServiceNote

open Deployment Operation

variable {settings : LeaseSettings} {tokenId : String} {notes : List ServiceNote}

/-- Reading the statistics of a collection gives what the notes say. -/
theorem AreAccurate.runOn_cachedStatistics {deployment : Deployment}
    (accurate : AreAccurate settings notes deployment)
    (passes : deployment.isStruckBy (.shared (.get (statisticsKey tokenId))) = false) :
    ((cachedStatistics tokenId).runOn deployment).1 =
      match published? settings tokenId notes with
      | some (statistics, _) => .ok statistics.withoutZeroSigns
      | none => .error (.error (.notFound (statisticsKey tokenId))) := by
  have present := accurate.statisticsText?_eq deployment.now tokenId (Nat.le_refl _)
  rw [runOn_cachedStatistics_fst, runOn_readStatistics, if_neg (by rw [passes]; decide), present]
  cases published? settings tokenId notes with
  | none => rfl
  | some publication =>
      dsimp only [Option.map_some]
      rw [CollectionStatistics.decode?_toText]

/-- The statistics in the notes were published by the call that they are noted
with. -/
theorem publication?_of_published? {statistics : CollectionStatistics} {before : Deployment}
    (published : published? settings tokenId notes = some (statistics, before)) :
    publication? settings tokenId before = some statistics := by
  induction notes with
  | nil => cases published
  | cons note earlier ih =>
      cases note with
      | called other deployment =>
          unfold published? at published
          split at published
          · split at published
            · next publication =>
              cases published
              exact publication
            · exact ih published
          · exact ih published
      | invalidated other =>
          unfold published? at published
          split at published
          · cases published
          · exact ih published

end ServiceNote

namespace ServiceHistory

open Operation ServiceNote

/-- A read that meets no outage succeeds just when a call has won the claim and
succeeded and no invalidation has succeeded since.  It gives what the latest
such call returned, which is what the marketplace store gave then, and a call
that fails does not change it. -/
theorem StartsEmpty.cachedStatistics_eq_latest {settings : LeaseSettings}
    {history : ServiceHistory} (startsEmpty : history.StartsEmpty settings) (tokenId : String)
    (passes : history.current.isStruckBy (.shared (.get (statisticsKey tokenId))) = false) :
    (∀ served, ((cachedStatistics tokenId).runOn history.current).1 = .ok served ↔
      ∃ statistics before,
        published? settings tokenId history.notes = some (statistics, before) ∧
          served = statistics.withoutZeroSigns) ∧
      (published? settings tokenId history.notes = none →
        ((cachedStatistics tokenId).runOn history.current).1 =
          .error (.error (.notFound (statisticsKey tokenId)))) ∧
      (∀ statistics before,
        published? settings tokenId history.notes = some (statistics, before) →
          ∃ info, (before.registry.lookup before.now tokenId).1 = .ok info ∧
            ((computeStatistics info.collectionId settings.batchSize).runOn
              before.withoutOutages).1 = .ok statistics) ∧
      (publication? settings tokenId history.current = none →
        (history.current.after (getStatistics settings tokenId)).isStruckBy
            (.shared (.get (statisticsKey tokenId))) = false →
          ((cachedStatistics tokenId).runOn
            (history.current.after (getStatistics settings tokenId))).1 =
              ((cachedStatistics tokenId).runOn history.current).1) := by
  have accurate := startsEmpty.areAccurate
  have answer := accurate.runOn_cachedStatistics passes
  refine ⟨fun served => ?_, fun unpublished => ?_, fun statistics before published => ?_,
    fun unsuccessful passesAfter => ?_⟩
  · rw [answer]
    rcases published? settings tokenId history.notes with _ | ⟨statistics, before⟩
    · simp
    · simp [eq_comm]
  · rw [answer, unpublished]
  · have publication := publication?_of_published? published
    exact computed_of_scoring? (scoring?_of_publication? publication)
  · rw [answer, (accurate.called tokenId).runOn_cachedStatistics passesAfter,
      published?_called_of_none unsuccessful]

/-- The last call of this history breaks off between two scores. -/
def brokenOff : ServiceHistory :=
  ofEvents .quarterHour (.empty 0 30 1048576 3600 none)
    [.register { tokenId := "ALPHA", collectionId := 1, name := "Alpha" },
      .getStatistics "ALPHA", .addToken 1 { ownerId := 7, attributes := "" }, .wait 900,
      .meet [{ endpoint := .rank, labelStart := "leaderboard:owners", skip := 0,
               remaining := none }],
      .getStatistics "ALPHA"]

theorem brokenOff_startsEmpty : brokenOff.StartsEmpty .quarterHour :=
  ⟨_, _, _, _, rfl, rfl⟩

theorem exists_published?_brokenOff :
    ∃ statistics before,
      published? .quarterHour "ALPHA" brokenOff.notes = some (statistics, before) ∧
        statistics.itemsTotal = 0 := by
  have items : (published? .quarterHour "ALPHA" brokenOff.notes).map
      (fun publication => publication.1.itemsTotal) = some 0 := by
    decide +kernel
  obtain ⟨⟨statistics, before⟩, published, noItems⟩ := Option.map_eq_some_iff.mp items
  exact ⟨statistics, before, published, noItems⟩

/-- The statistics that were published before a call broke off are still
served. -/
theorem StartsEmpty.cachedStatistics_eq_latest_brokenOff :
    brokenOff.StartsEmpty .quarterHour ∧
      brokenOff.current.isStruckBy (.shared (.get (statisticsKey "ALPHA"))) = false ∧
      ∃ served, ((cachedStatistics "ALPHA").runOn brokenOff.current).1 = .ok served ∧
        served.itemsTotal = 0 := by
  have passes : brokenOff.current.isStruckBy (.shared (.get (statisticsKey "ALPHA"))) = false := by
    decide +kernel
  obtain ⟨statistics, before, published, noItems⟩ := exists_published?_brokenOff
  refine ⟨brokenOff_startsEmpty, passes, statistics.withoutZeroSigns, ?_, noItems⟩
  apply ((brokenOff_startsEmpty.cachedStatistics_eq_latest "ALPHA" passes).1 _).mpr
  exact ⟨statistics, before, published, rfl⟩

def withNegativeZero : ServiceHistory :=
  ofEvents .quarterHour (.empty 0 30 1048576 3600 none)
    [.register { tokenId := "ALPHA", collectionId := 1, name := "Alpha" },
      .record .negativeZeroSale, .getStatistics "ALPHA"]

/-- What is served need not be what the latest recomputation returned: a
negative zero loses its sign. -/
theorem served_ne_published_withNegativeZero :
    ∃ statistics before served,
      published? .quarterHour "ALPHA" withNegativeZero.notes = some (statistics, before) ∧
        ((cachedStatistics "ALPHA").runOn withNegativeZero.current).1 = .ok served ∧
        served ≠ statistics := by
  have startsEmpty : withNegativeZero.StartsEmpty .quarterHour := ⟨_, _, _, _, rfl, rfl⟩
  have passes :
      withNegativeZero.current.isStruckBy (.shared (.get (statisticsKey "ALPHA"))) = false := by
    decide +kernel
  have floorPrice : (published? .quarterHour "ALPHA" withNegativeZero.notes).map
      (fun publication => publication.1.floorPrice) =
        some Transaction.negativeZeroSale.price := by
    decide +kernel
  obtain ⟨⟨statistics, before⟩, published, negativeZero⟩ := Option.map_eq_some_iff.mp floorPrice
  have answer := startsEmpty.areAccurate.runOn_cachedStatistics passes
  rw [published] at answer
  refine ⟨statistics, before, statistics.withoutZeroSigns, published, answer, fun same => ?_⟩
  have signless := ((CollectionStatistics.withoutZeroSigns_eq_self_iff statistics).mp same).1
  rw [negativeZero] at signless
  exact absurd signless (by decide)

end ServiceHistory

end MarketStats
