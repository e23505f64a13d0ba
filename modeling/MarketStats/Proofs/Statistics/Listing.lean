import MarketStats.Proofs.Cache.Ranking
import MarketStats.Proofs.Registry.Session
import MarketStats.Proofs.Statistics.Claims
import MarketStats.Proofs.Statistics.Lockstep
import MarketStats.Proofs.Statistics.Pages
import MarketStats.Proofs.Statistics.Serving

/-!
# What the leaderboards list

A recomputation sets all scores of a collection before it publishes the
statistics, so a collection with statistics is a member of every ranking.  A
member without statistics or without a mapping has no line.  All leaderboards
therefore list the same collections: those that are registered and have
statistics.  A warm-up counts these.
-/

namespace MarketStats

/-- The mapping that a line shows. -/
def LeaderboardEntry.info (entry : LeaderboardEntry) : CollectionInfo :=
  { tokenId := entry.tokenId, collectionId := entry.collectionId, name := entry.name }

namespace Deployment

open Operation

/-- A line shows a collection that is registered, under its current name, and
the statistics that are published for it. -/
def Lists (deployment : Deployment) (entry : LeaderboardEntry) : Prop :=
  (∃ infos, (collections.runOn deployment).1 = .ok infos ∧ entry.info ∈ infos) ∧
    ((cachedStatistics entry.tokenId).runOn deployment).1 = .ok entry.statistics

/-- Some lines are those of all collections that are registered and have
statistics, and no two of them are of the same collection. -/
structure IsListing (deployment : Deployment) (entries : List LeaderboardEntry) : Prop where
  nodup : (entries.map LeaderboardEntry.tokenId).Nodup
  mem_iff : ∀ entry, entry ∈ entries ↔ deployment.Lists entry

/-- All ranks of a leaderboard. -/
def fullListing (deployment : Deployment) (request : String) (descending : Bool) :
    Except Failure (List LeaderboardEntry) :=
  ((leaderboard request 0 (-1) descending).runOn deployment).1

/-- Along every dimension, and in either order, there is a full listing. -/
def HasListings (deployment : Deployment) : Prop :=
  ∀ request dimension, LeaderboardDimension.ofRequest? request = some dimension →
    ∀ descending, ∃ entries, deployment.fullListing request descending = .ok entries ∧
      deployment.IsListing entries

end Deployment

namespace Operation

open Deployment

variable {tokenId : String} {deployment : Deployment}

/-- Without outages whoever has gathered statistics publishes them. -/
theorem exists_runOn_publish (clear : deployment.outages = []) (statistics : CollectionStatistics) :
    ∃ after, (publish tokenId statistics).runOn deployment = (.ok statistics, after) := by
  have scoring (dimensions : List LeaderboardDimension) :
      ∃ scored, (writeScores tokenId statistics dimensions).runOn deployment = (.ok (), scored) ∧
        scored.outages = [] := by
    induction dimensions generalizing deployment with
    | nil => exact ⟨deployment, rfl, clear⟩
    | cons dimension rest ih =>
        obtain ⟨ranked, ranOne, clearBehind⟩ := exists_runOn_askShared clear
          (.rank (leaderboardKey dimension) tokenId (dimension.score statistics)) rfl
        obtain ⟨scored, ranRest, stillClear⟩ := ih clearBehind
        exact ⟨scored, (runOn_bind_of_ok ranOne).trans ranRest, stillClear⟩
  obtain ⟨scored, ranScores, clearBehind⟩ := scoring LeaderboardDimension.all
  obtain ⟨written, ranKeep, -⟩ := exists_runOn_askShared clearBehind
    (.keep (statisticsKey tokenId) statistics.toJson.toText) rfl
  unfold publish
  rw [updateLeaderboards, runOn_bind_of_ok ranScores, writeStatistics, runOn_bind_of_ok ranKeep]
  exact ⟨_, rfl⟩

section WarmUp

variable {settings : LeaseSettings} {info : CollectionInfo} {rest : List CollectionInfo}
variable {middle last : Deployment} {count : Nat}

/-- A warm-up counts a call that succeeds, and goes on. -/
theorem runOn_warmAll_of_ok {statistics : CollectionStatistics}
    (ran : (getStatistics settings info.tokenId).runOn deployment = (.ok statistics, middle))
    (ranRest : (warmAll settings rest).runOn middle = (.ok count, last)) :
    (warmAll settings (info :: rest)).runOn deployment = (.ok (count + 1), last) := by
  rw [warmAll, runOn_bind_of_ok (runOn_attempt_of_ok ran), runOn_bind_of_ok ranRest]
  rfl

/-- A warm-up leaves out a call that fails, and goes on. -/
theorem runOn_warmAll_of_error {cause : StatsError}
    (ran : (getStatistics settings info.tokenId).runOn deployment =
      (.error (.error cause), middle))
    (ranRest : (warmAll settings rest).runOn middle = (.ok count, last)) :
    (warmAll settings (info :: rest)).runOn deployment = (.ok count, last) := by
  rw [warmAll, runOn_bind_of_ok (runOn_attempt_of_error ran), runOn_bind_of_ok ranRest]
  rfl

end WarmUp

end Operation

namespace ServiceNote

open Deployment Operation

/-- The line of a collection that is registered and has statistics. -/
def line? (settings : LeaseSettings) (mappings : Mappings) (notes : List ServiceNote)
    (tokenId : String) : Option LeaderboardEntry :=
  match mappings.find? tokenId, published? settings tokenId notes with
  | some info, some (statistics, _) =>
      some
        { tokenId := info.tokenId
          collectionId := info.collectionId
          name := info.name
          statistics := statistics.withoutZeroSigns }
  | _, _ => none

/-- On a deployment without outages the registry stands for a map, and what is
published is what the notes say. -/
structure Describes (settings : LeaseSettings) (mappings : Mappings) (notes : List ServiceNote)
    (deployment : Deployment) : Prop where
  clear : deployment.outages = []
  refines : deployment.registry.Refines mappings
  accurate : AreAccurate settings notes deployment

variable {settings : LeaseSettings} {mappings : Mappings} {notes : List ServiceNote}
variable {tokenId : String} {deployment : Deployment}

theorem tokenId_of_line? {entry : LeaderboardEntry}
    (shown : line? settings mappings notes tokenId = some entry) : entry.tokenId = tokenId := by
  unfold line? at shown
  split at shown
  · next found _ =>
    cases shown
    exact Mappings.tokenId_of_find? found
  · cases shown

theorem isSome_line?_iff :
    (line? settings mappings notes tokenId).isSome = true ↔
      (mappings.find? tokenId).isSome = true ∧
        (published? settings tokenId notes).isSome = true := by
  unfold line?
  cases mappings.find? tokenId with
  | none => simp
  | some info =>
      cases published? settings tokenId notes with
      | none => simp
      | some publication => simp

namespace Describes

/-- What publishes nothing and registers nothing leaves the description as it
is. -/
theorem behind {α : Type} {operation : Operation α}
    (describes : Describes settings mappings notes deployment)
    (keepsPublished : KeepsPublished operation) (keeps : Within KeepsServing operation) :
    Describes settings mappings notes (deployment.after operation) where
  clear := (keeps deployment).clear describes.clear
  refines := (keeps deployment).refines mappings describes.refines
  accurate := describes.accurate.of_samePublished (keepsPublished deployment)

theorem runOn_cachedStatistics (describes : Describes settings mappings notes deployment)
    (tokenId : String) :
    ((cachedStatistics tokenId).runOn deployment).1 =
      match published? settings tokenId notes with
      | some (statistics, _) => .ok statistics.withoutZeroSigns
      | none => .error (.error (.notFound (statisticsKey tokenId))) :=
  describes.accurate.runOn_cachedStatistics (isStruckBy_of_no_outages describes.clear _)

theorem runOn_collections (describes : Describes settings mappings notes deployment) :
    collections.runOn deployment = (.ok mappings.list, deployment) := by
  rw [collections, runOn_useRegistry, describes.refines.list]
  rfl

theorem lists_iff (describes : Describes settings mappings notes deployment)
    (entry : LeaderboardEntry) :
    deployment.Lists entry ↔ line? settings mappings notes entry.tokenId = some entry := by
  unfold Deployment.Lists
  rw [describes.runOn_collections, describes.runOn_cachedStatistics]
  have registered : (∃ infos, (Except.ok mappings.list : Except Failure _) = .ok infos ∧
      entry.info ∈ infos) ↔ mappings.find? entry.tokenId = some entry.info := by
    constructor
    · rintro ⟨_, ⟨⟩, listed⟩
      exact Mappings.mem_list_iff.mp listed
    · exact fun found => ⟨_, rfl, Mappings.mem_list_iff.mpr found⟩
  rw [registered]
  unfold line?
  rcases mappings.find? entry.tokenId with _ | info
  · simp
  rcases published? settings entry.tokenId notes with _ | ⟨statistics, before⟩
  · simp
  · obtain ⟨shownId, shownCollection, shownName, shownStatistics⟩ := entry
    obtain ⟨ownId, ownCollection, ownName⟩ := info
    simp only [LeaderboardEntry.info, Option.some.injEq, Except.ok.injEq,
      CollectionInfo.mk.injEq, LeaderboardEntry.mk.injEq, and_assoc]

/-- The line that a deployment shows is the one of the notes. -/
theorem line?_eq (describes : Describes settings mappings notes deployment) (tokenId : String) :
    deployment.line? tokenId = line? settings mappings notes tokenId := by
  have mapping?_eq : deployment.mapping? tokenId = mappings.find? tokenId := by
    rw [mapping?, (describes.refines.lookup deployment.now tokenId).1, Mappings.lookup]
    cases mappings.find? tokenId with
    | none => rfl
    | some info => rfl
  obtain ⟨outcome, read, statistics?_eq⟩ := exists_runOn_readStatistics tokenId deployment
  have served := describes.runOn_cachedStatistics tokenId
  rw [runOn_cachedStatistics_fst, read] at served
  rw [isStruckBy_of_no_outages describes.clear, if_neg Bool.false_ne_true] at statistics?_eq
  unfold Deployment.line? line?
  rw [mapping?_eq, ← statistics?_eq]
  cases mappings.find? tokenId with
  | none => rfl
  | some info =>
      cases published : published? settings tokenId notes with
      | none =>
          rw [published] at served
          cases outcome with
          | error cause => rfl
          | ok statistics => cases served
      | some publication =>
          rw [published] at served
          cases outcome with
          | error cause => cases served
          | ok statistics =>
              cases served
              rfl

/-- A collection with statistics is a member of every ranking. -/
theorem mem_range_of_published? (describes : Describes settings mappings notes deployment)
    (published : (published? settings tokenId notes).isSome = true)
    (dimension : LeaderboardDimension) (descending : Bool) :
    tokenId ∈ deployment.shared.rankings.range (leaderboardKey dimension) 0 (-1) descending := by
  obtain ⟨⟨statistics, before⟩, isPublished⟩ := Option.isSome_iff_exists.mp published
  have scored : deployment.score? dimension tokenId = _ :=
    describes.accurate.score?_eq dimension tokenId
  rw [scored?_of_published? isPublished] at scored
  rw [Rankings.mem_range_iff]
  exact Option.isSome_iff_exists.mpr ⟨_, scored⟩

theorem map_tokenId_filterMap_line? (tokenIds : List String) :
    (tokenIds.filterMap (line? settings mappings notes)).map LeaderboardEntry.tokenId =
      tokenIds.filter fun tokenId => (line? settings mappings notes tokenId).isSome := by
  induction tokenIds with
  | nil => rfl
  | cons tokenId rest ih =>
      cases shown : line? settings mappings notes tokenId with
      | none =>
          rw [List.filterMap_cons_none shown, ih, List.filter_cons_of_neg]
          rw [shown]
          exact Bool.false_ne_true
      | some entry =>
          rw [List.filterMap_cons_some shown, List.map_cons, ih, tokenId_of_line? shown,
            List.filter_cons_of_pos]
          rw [shown]
          rfl

/-- Every leaderboard lists the collections that are registered and have
statistics. -/
theorem hasListings (describes : Describes settings mappings notes deployment) :
    deployment.HasListings := by
  intro request dimension named descending
  obtain ⟨after, ran, -⟩ := exists_runOn_leaderboard_of_readsPass
    (LeaderboardDimension.ofRequest?_eq_some_iff.mp named) (.of_no_outages describes.clear)
    0 (-1) descending
  rw [funext describes.line?_eq] at ran
  unfold fullListing
  rw [ran]
  refine ⟨_, rfl, ?_, fun entry => ?_⟩
  · rw [map_tokenId_filterMap_line?]
    exact Rankings.nodup_range.filter _
  · rw [describes.lists_iff, List.mem_filterMap]
    constructor
    · rintro ⟨tokenId, -, shown⟩
      rw [tokenId_of_line? shown]
      exact shown
    · intro shown
      have hasStatistics := (isSome_line?_iff.mp (Option.isSome_iff_exists.mpr ⟨_, shown⟩)).2
      exact ⟨_, describes.mem_range_of_published? hasStatistics dimension descending, shown⟩

/-- A listing has as many lines as there are registered collections with
statistics. -/
theorem length_of_isListing (describes : Describes settings mappings notes deployment)
    {entries : List LeaderboardEntry} (listing : deployment.IsListing entries) :
    entries.length = mappings.list.countP fun info =>
      (published? settings info.tokenId notes).isSome := by
  have same : (entries.map LeaderboardEntry.tokenId).Perm ((mappings.list.filter fun info =>
      (published? settings info.tokenId notes).isSome).map CollectionInfo.tokenId) := by
    refine (List.perm_ext_iff_of_nodup listing.nodup ?_).mpr fun tokenId => ?_
    · exact mappings.nodup_list.sublist (List.filter_sublist.map _)
    · simp only [List.mem_map, List.mem_filter, listing.mem_iff, describes.lists_iff]
      constructor
      · rintro ⟨entry, shown, rfl⟩
        obtain ⟨registered, published⟩ :=
          isSome_line?_iff.mp (Option.isSome_iff_exists.mpr ⟨_, shown⟩)
        obtain ⟨info, found⟩ := Option.isSome_iff_exists.mp registered
        have sameToken := Mappings.tokenId_of_find? found
        refine ⟨info, ⟨Mappings.mem_list_iff.mpr ?_, ?_⟩, sameToken⟩
        · rw [sameToken, found]
        · rw [sameToken, published]
      · rintro ⟨info, ⟨listed, published⟩, rfl⟩
        have registered := Mappings.mem_list_iff.mp listed
        obtain ⟨entry, shown⟩ := Option.isSome_iff_exists.mp
          (isSome_line?_iff.mpr ⟨by rw [registered]; rfl, published⟩)
        have sameToken := tokenId_of_line? shown
        exact ⟨entry, by rw [sameToken]; exact shown, sameToken⟩
  rw [List.countP_eq_length_filter, ← List.length_map LeaderboardEntry.tokenId, same.length_eq,
    List.length_map]

/-- Without outages the mapping of a registered collection is found. -/
theorem runOn_lookup (describes : Describes settings mappings notes deployment)
    {info : CollectionInfo} (registered : mappings.find? tokenId = some info) :
    (lookup tokenId).runOn deployment = (.ok info, deployment.after (lookup tokenId)) := by
  have answered := (describes.refines.lookup deployment.now tokenId).1
  rw [Mappings.lookup, registered] at answered
  rw [Deployment.after, lookup, runOn_useRegistry, answered]
  rfl

/-- Without outages and overflow a recomputation for a registered collection
succeeds. -/
theorem exists_runOn_recompute (describes : Describes settings mappings notes deployment)
    {info : CollectionInfo} (registered : mappings.find? tokenId = some info)
    (fits : (deployment.market.buyVolume? info.collectionId).isSome = true) :
    ∃ statistics after,
      (recompute settings tokenId).runOn deployment = (.ok statistics, after) := by
  have looked := describes.runOn_lookup registered
  have keepsLookup : Within KeepsServing (lookup tokenId) := composes_keepsServing.lookup trivial
  have clearBehind := (keepsLookup deployment).clear describes.clear
  have fitsBehind := fits
  rw [← (keepsLookup deployment).market_eq] at fitsBehind
  obtain ⟨volume, summed⟩ := Option.isSome_iff_exists.mp fitsBehind
  obtain ⟨statistics, computed, ran, -⟩ :=
    exists_runOn_computeStatistics clearBehind summed settings.batchSize
  have gathered : (gather settings tokenId).runOn deployment = (.ok statistics, computed) :=
    (runOn_bind_of_ok looked).trans ran
  have keepsCompute : Within KeepsServing
      (computeStatistics info.collectionId settings.batchSize) :=
    composes_keepsServing.computeStatistics (fun _ => id) _ _
  have stillClear := (keepsCompute.of_ran ran).clear clearBehind
  obtain ⟨after, published⟩ := exists_runOn_publish stillClear statistics
  refine ⟨statistics, after, ?_⟩
  rw [recompute_eq, runOn_bind_of_ok gathered]
  exact published

/-- Without outages and overflow a call for a registered collection succeeds just
when there are statistics behind it. -/
theorem runOn_getStatistics_cases (describes : Describes settings mappings notes deployment)
    (inTime : (Clock.after? deployment.now settings.claimLifetime).isSome = true)
    {info : CollectionInfo} (registered : mappings.find? tokenId = some info)
    (fits : (deployment.market.buyVolume? info.collectionId).isSome = true) :
    (∃ statistics, ((getStatistics settings tokenId).runOn deployment).1 = .ok statistics ∧
        (published? settings tokenId (.called tokenId deployment :: notes)).isSome = true) ∨
      ∃ cause, ((getStatistics settings tokenId).runOn deployment).1 = .error (.error cause) ∧
        published? settings tokenId (.called tokenId deployment :: notes) = none := by
  have keepsClaim := keepsServing_claim settings tokenId
  have describesClaimed := describes.behind (KeepsPublished.claim settings tokenId) keepsClaim
  rcases runOn_claim_cases settings tokenId deployment with
    ⟨claimed, claims, -⟩ | ⟨-, tooLong, -⟩ | ⟨-, claimed, claims, -⟩
  · have lost : publication? settings tokenId deployment = none := by
      rw [publication?, claims]
    have served : (getStatistics settings tokenId).runOn deployment =
        (serve tokenId).runOn claimed := runOn_bind_of_ok claims
    rw [Deployment.after, claims] at describesClaimed
    have describesCounted := describesClaimed.behind
      (.of_leavesShared (.count fun counters =>
        { counters with claimsLost := counters.claimsLost + 1 }))
      (composes_keepsServing.count _)
    have read := describesCounted.runOn_cachedStatistics tokenId
    rw [served, serve, runOn_bind_of_ok (runOn_count _ _), published?_called_of_none lost]
    cases published : published? settings tokenId notes with
    | none =>
        rw [published] at read
        exact .inr ⟨_, read, rfl⟩
    | some publication =>
        rw [published] at read
        exact .inl ⟨_, read, rfl⟩
  · rw [tooLong] at inTime
    cases inTime
  · have fitsClaimed := fits
    rw [← (keepsClaim.of_ran claims).market_eq] at fitsClaimed
    rw [Deployment.after, claims] at describesClaimed
    obtain ⟨statistics, after, ran⟩ :=
      describesClaimed.exists_runOn_recompute registered fitsClaimed
    have recomputed : (getStatistics settings tokenId).runOn deployment =
        (.ok statistics, after) := (runOn_bind_of_ok claims).trans ran
    have publication : publication? settings tokenId deployment = some statistics := by
      rw [publication?, claims, recomputed]
      rfl
    left
    rw [recomputed, published?_called_of_some publication, if_pos rfl]
    exact ⟨statistics, rfl, rfl⟩

theorem called (describes : Describes settings mappings notes deployment) (tokenId : String) :
    Describes settings mappings (.called tokenId deployment :: notes)
      (deployment.after (getStatistics settings tokenId)) where
  clear := (keepsServing_getStatistics settings tokenId deployment).clear describes.clear
  refines := (keepsServing_getStatistics settings tokenId deployment).refines mappings
    describes.refines
  accurate := describes.accurate.called tokenId

/-- Without outages and overflow a warm-up of some registered collections counts
those that have statistics behind it, and other collections do not notice. -/
theorem runOn_warmAll (describes : Describes settings mappings notes deployment)
    (inTime : (Clock.after? deployment.now settings.claimLifetime).isSome = true)
    {infos : List CollectionInfo} (nodup : (infos.map CollectionInfo.tokenId).Nodup)
    (registered : ∀ info ∈ infos, mappings.find? info.tokenId = some info)
    (fits : ∀ info ∈ infos, (deployment.market.buyVolume? info.collectionId).isSome = true) :
    ∃ later, Describes settings mappings later (deployment.after (warmAll settings infos)) ∧
      (∀ other, other ∉ infos.map CollectionInfo.tokenId →
        published? settings other later = published? settings other notes) ∧
      ((warmAll settings infos).runOn deployment).1 =
        .ok (infos.countP fun info => (published? settings info.tokenId later).isSome) := by
  induction infos generalizing deployment notes with
  | nil => exact ⟨notes, describes, fun _ _ => rfl, rfl⟩
  | cons info rest ih =>
      obtain ⟨notInRest, nodupRest⟩ := List.nodup_cons.mp nodup
      obtain ⟨isRegistered, restRegistered⟩ := List.forall_mem_cons.mp registered
      obtain ⟨infoFits, restFits⟩ := List.forall_mem_cons.mp fits
      have keeps := keepsServing_getStatistics settings info.tokenId deployment
      have inTimeBehind : (Clock.after? (deployment.after
          (getStatistics settings info.tokenId)).now settings.claimLifetime).isSome = true := by
        rw [Deployment.after, keeps.now_eq]
        exact inTime
      have restFitsBehind : ∀ other ∈ rest, ((deployment.after
          (getStatistics settings info.tokenId)).market.buyVolume? other.collectionId).isSome =
            true := by
        rw [Deployment.after, keeps.market_eq]
        exact restFits
      obtain ⟨later, describesLater, unnoticed, warmed⟩ :=
        ih (describes.called info.tokenId) inTimeBehind nodupRest restRegistered restFitsBehind
      have unnoticedByAll : ∀ other, other ∉ (info :: rest).map CollectionInfo.tokenId →
          published? settings other later = published? settings other notes := by
        intro other notListed
        obtain ⟨different, notInRest⟩ := not_or.mp (mt List.mem_cons.mpr notListed)
        rw [unnoticed other notInRest, published?, if_neg (Ne.symm different)]
      have calls := describes.runOn_getStatistics_cases inTime isRegistered infoFits
      rcases ran : (getStatistics settings info.tokenId).runOn deployment with ⟨result, middle⟩
      rw [Deployment.after, Deployment.after, ran] at describesLater
      rw [Deployment.after, ran] at warmed
      rw [ran] at calls
      rcases ranRest : (warmAll settings rest).runOn middle with ⟨restResult, last⟩
      rw [ranRest] at describesLater warmed
      cases warmed
      rcases calls with ⟨statistics, succeeded, published⟩ | ⟨cause, failed, unpublished⟩
      · cases succeeded
        rw [Deployment.after, runOn_warmAll_of_ok ran ranRest]
        refine ⟨later, describesLater, unnoticedByAll, congrArg Except.ok ?_⟩
        rw [List.countP_cons_of_pos]
        rw [unnoticed info.tokenId notInRest, published]
      · cases failed
        rw [Deployment.after, runOn_warmAll_of_error ran ranRest]
        refine ⟨later, describesLater, unnoticedByAll, congrArg Except.ok ?_⟩
        rw [List.countP_cons_of_neg]
        rw [unnoticed info.tokenId notInRest, unpublished]
        exact Bool.false_ne_true

/-- Without outages and overflow a warm-up counts the registered collections
that have statistics behind it. -/
theorem runOn_warm (describes : Describes settings mappings notes deployment)
    (inTime : (Clock.after? deployment.now settings.claimLifetime).isSome = true)
    (fits : ∀ info ∈ mappings.list,
      (deployment.market.buyVolume? info.collectionId).isSome = true) :
    ∃ later, Describes settings mappings later (deployment.after (warm settings)) ∧
      ((warm settings).runOn deployment).1 = .ok (mappings.list.countP fun info =>
        (published? settings info.tokenId later).isSome) := by
  obtain ⟨later, describesLater, -, warmed⟩ := describes.runOn_warmAll inTime
    mappings.nodup_list (fun _ => Mappings.mem_list_iff.mp) fits
  have ran : (warm settings).runOn deployment = (warmAll settings mappings.list).runOn deployment :=
    runOn_bind_of_ok describes.runOn_collections
  refine ⟨later, ?_, ?_⟩
  · rw [Deployment.after, ran]
    exact describesLater
  · rw [ran]
    exact warmed

end Describes

end ServiceNote

namespace ServiceHistory

open Deployment Operation ServiceNote

variable {settings : LeaseSettings} {start : Deployment} {moment sweepInterval : Nat}
variable {mappings : Mappings}

/-- As long as no outage is left, every leaderboard lists, in either order, just
the collections that are registered and have statistics.  A warm-up that meets
no overflow, neither of the clock nor of an amount, counts the lines that every
leaderboard has behind it. -/
theorem leaderboards_list_published (settings : LeaseSettings)
    (nothingCached : start.shared = .empty moment sweepInterval)
    (refines : start.registry.Refines mappings) (events : List ServiceEvent)
    (clear : (ofEvents settings start events).current.outages = []) :
    (ofEvents settings start events).current.HasListings ∧
      ((Clock.after? (ofEvents settings start events).current.now
          settings.claimLifetime).isSome = true →
        (∀ infos, (collections.runOn (ofEvents settings start events).current).1 = .ok infos →
          ∀ info ∈ infos, ((ofEvents settings start events).current.market.buyVolume?
            info.collectionId).isSome = true) →
        ∃ count, ((warm settings).runOn (ofEvents settings start events).current).1 = .ok count ∧
          ((ofEvents settings start events).current.after (warm settings)).HasListings ∧
          ∀ request descending entries,
            ((ofEvents settings start events).current.after (warm settings)).fullListing
                request descending = .ok entries →
              entries.length = count) := by
  obtain ⟨known, refinesKnown⟩ := exists_refines_ofEvents settings refines events
  have describes : Describes settings known (ofEvents settings start events).notes
      (ofEvents settings start events).current :=
    { clear
      refines := refinesKnown
      accurate := (isKept_areAccurate settings).ofEvents (.nil nothingCached) events }
  refine ⟨describes.hasListings, fun inTime fits => ?_⟩
  obtain ⟨later, describesLater, warmed⟩ :=
    describes.runOn_warm inTime (fits known.list (by rw [describes.runOn_collections]))
  refine ⟨_, warmed, describesLater.hasListings, fun request descending entries listed => ?_⟩
  cases named : LeaderboardDimension.ofRequest? request with
  | none =>
      rw [fullListing, leaderboard, named] at listed
      cases listed
  | some dimension =>
      obtain ⟨_, listedAlso, listing⟩ :=
        describesLater.hasListings request dimension named descending
      rw [listed] at listedAlso
      cases listedAlso
      exact describesLater.length_of_isListing listing

/-- Of three collections that are registered one was invalidated, and a call for
another one came before it was registered and has left a claim. -/
def withLeftClaim : Deployment :=
  (ofEvents .quarterHour (.empty 0 30 1048576 3600 none)
    [.register { tokenId := "ALPHA", collectionId := 1, name := "Alpha" },
      .register { tokenId := "BETA", collectionId := 2, name := "Beta" },
      .record { Transaction.negativeZeroSale with collectionId := 2 }, .getStatistics "GAMMA",
      .getStatistics "ALPHA", .getStatistics "BETA", .rename "BETA" "Second", .restart,
      .register { tokenId := "GAMMA", collectionId := 3, name := "Gamma" }, .wait 60,
      .invalidate "ALPHA"]).current

theorem eq_ok_of_toOption_eq_some {ε α : Type} {outcome : Except ε α} {value : α}
    (isOk : outcome.toOption = some value) : outcome = .ok value := by
  cases outcome with
  | error failure => cases isOk
  | ok result =>
      cases isOk
      rfl

theorem collections_withLeftClaim :
    (collections.runOn withLeftClaim).1 =
      .ok [{ tokenId := "ALPHA", collectionId := 1, name := "Alpha" },
        { tokenId := "BETA", collectionId := 2, name := "Second" },
        { tokenId := "GAMMA", collectionId := 3, name := "Gamma" }] :=
  eq_ok_of_toOption_eq_some (by decide +kernel)

theorem leaderboards_list_published_withLeftClaim :
    ∃ entries warmed,
      withLeftClaim.fullListing "Volume" true = .ok entries ∧
        (∃ statistics,
          { tokenId := "BETA", collectionId := 2, name := "Second", statistics } ∈ entries) ∧
        (∀ entry ∈ entries, entry.tokenId ≠ "ALPHA") ∧
        ((warm .quarterHour).runOn withLeftClaim).1 = .ok 2 ∧
        (withLeftClaim.after (warm .quarterHour)).fullListing "items" false = .ok warmed ∧
        warmed.length = 2 := by
  have clear : withLeftClaim.outages = [] := outages_ofEvents .quarterHour rfl (by simp)
  obtain ⟨listings, warmUp⟩ := leaderboards_list_published .quarterHour rfl
    (Registry.Session.refines_fresh 1048576 3600 0) _ clear
  change withLeftClaim.HasListings at listings
  have published : ((cachedStatistics "BETA").runOn withLeftClaim).1.isOk = true := by
    decide +kernel
  have invalidated : ((cachedStatistics "ALPHA").runOn withLeftClaim).1.isOk = false := by
    decide +kernel
  have warms : ((warm .quarterHour).runOn withLeftClaim).1 = .ok 2 :=
    eq_ok_of_toOption_eq_some (by decide +kernel)
  have inTime : (Clock.after? withLeftClaim.now
      LeaseSettings.quarterHour.claimLifetime).isSome = true := by
    decide +kernel
  obtain ⟨count, warmed, listingsThen, counted⟩ := warmUp inTime fun infos listed => by
    cases collections_withLeftClaim.symm.trans listed
    decide +kernel
  cases warms.symm.trans warmed
  obtain ⟨entries, listed, listing⟩ := listings "Volume" .volume (by decide) true
  obtain ⟨entriesThen, listedThen, -⟩ := listingsThen "items" .items (by decide) false
  refine ⟨entries, entriesThen, listed, ?_, fun entry shown isAlpha => ?_, warms, listedThen,
    counted _ _ _ listedThen⟩
  · cases read : ((cachedStatistics "BETA").runOn withLeftClaim).1 with
    | error failure =>
        rw [read] at published
        cases published
    | ok statistics =>
        refine ⟨statistics, (listing.mem_iff _).mpr ⟨⟨_, collections_withLeftClaim, ?_⟩, read⟩⟩
        exact List.mem_cons_of_mem _ List.mem_cons_self
  · have read := ((listing.mem_iff entry).mp shown).2
    rw [isAlpha] at read
    rw [read] at invalidated
    cases invalidated

end ServiceHistory

end MarketStats
