import MarketStats.Proofs.Statistics.Computation
import MarketStats.Proofs.Statistics.Published

/-!
# What a recomputation does

A recomputation gathers statistics, sets their scores one after the other, and
publishes them last.  It may break off at every request.  Until the statistics
are gathered nothing is touched; then some scores are set, in the order of the
dimensions; and the statistics are replaced only when nothing can fail any
more.
-/

namespace MarketStats

namespace Operation

def gather (settings : LeaseSettings) (tokenId : String) : Operation CollectionStatistics := do
  let info ← lookup tokenId
  computeStatistics info.collectionId settings.batchSize

def publish (tokenId : String) (statistics : CollectionStatistics) :
    Operation CollectionStatistics := do
  updateLeaderboards tokenId statistics
  writeStatistics tokenId statistics
  count fun counters => { counters with recomputations := counters.recomputations + 1 }
  pure statistics

/-- What a call does that has lost the claim. -/
def serve (tokenId : String) : Operation CollectionStatistics := do
  count fun counters => { counters with claimsLost := counters.claimsLost + 1 }
  cachedStatistics tokenId

/-- A recomputation gathers statistics and then publishes them. -/
theorem recompute_eq (settings : LeaseSettings) (tokenId : String) :
    recompute settings tokenId = gather settings tokenId >>= publish tokenId := by
  unfold recompute gather publish
  rw [bind_assoc]

/-- The dimensions among some whose scores are set before a request fails. -/
def scoredDimensions (tokenId : String) (statistics : CollectionStatistics) :
    List LeaderboardDimension → Deployment → List LeaderboardDimension
  | [], _ => []
  | dimension :: rest, deployment =>
      match (askShared (.rank (leaderboardKey dimension) tokenId
        (dimension.score statistics))).runOn deployment with
      | (.ok _, after) => dimension :: scoredDimensions tokenId statistics rest after
      | (.error _, _) => []

/-- The statistics that a call gathers if it wins the claim, and the deployment
on which it goes on to publish them. -/
def gathered? (settings : LeaseSettings) (tokenId : String) (before : Deployment) :
    Option (CollectionStatistics × Deployment) :=
  match (claim settings tokenId).runOn before with
  | (.ok true, claimed) =>
      match (gather settings tokenId).runOn claimed with
      | (.ok statistics, gathered) => some (statistics, gathered)
      | (.error _, _) => none
  | _ => none

/-- The statistics that a call gathers if it wins the claim, and the dimensions
whose scores it sets. -/
def scoring? (settings : LeaseSettings) (tokenId : String) (before : Deployment) :
    Option (CollectionStatistics × List LeaderboardDimension) :=
  (gathered? settings tokenId before).map fun (statistics, gathered) =>
    (statistics, scoredDimensions tokenId statistics LeaderboardDimension.all gathered)

/-- The statistics that a call returns if it wins the claim and succeeds. -/
def publication? (settings : LeaseSettings) (tokenId : String) (before : Deployment) :
    Option CollectionStatistics :=
  match (claim settings tokenId).runOn before with
  | (.ok true, _) => ((getStatistics settings tokenId).runOn before).1.toOption
  | _ => none

end Operation

namespace Deployment

/-- The scores of a collection along some dimensions were set to those of some
statistics; nothing else that is published has changed. -/
structure SetsScores (tokenId : String) (statistics : CollectionStatistics)
    (dimensions : List LeaderboardDimension) (before after : Deployment) : Prop where
  now_le : before.now ≤ after.now
  statisticsText?_eq : ∀ moment other, after.now ≤ moment →
    after.statisticsText? moment other = before.statisticsText? moment other
  score?_eq : ∀ dimension other, after.score? dimension other =
    if other = tokenId ∧ dimension ∈ dimensions then some (dimension.score statistics)
    else before.score? dimension other

/-- The statistics of a collection were published, and all its scores were
set. -/
structure Publishes (tokenId : String) (statistics : CollectionStatistics)
    (before after : Deployment) : Prop where
  now_le : before.now ≤ after.now
  statisticsText?_eq : ∀ moment other, after.now ≤ moment →
    after.statisticsText? moment other =
      if other = tokenId then some statistics.toJson.toText
      else before.statisticsText? moment other
  score?_eq : ∀ dimension other, after.score? dimension other =
    if other = tokenId then some (dimension.score statistics) else before.score? dimension other

variable {tokenId : String} {statistics : CollectionStatistics}
variable {dimensions : List LeaderboardDimension} {before middle after : Deployment}

namespace SetsScores

theorem of_samePublished (same : SamePublished before after) :
    SetsScores tokenId statistics [] before after where
  now_le := same.now_le
  statisticsText?_eq := same.statisticsText?_eq
  score?_eq dimension other := by
    rw [same.score?_eq, if_neg]
    rintro ⟨-, ⟨⟩⟩

/-- Setting one more score in front of others. -/
theorem cons {dimension : LeaderboardDimension} {rest : List LeaderboardDimension}
    (first : SetsScores tokenId statistics [dimension] before middle)
    (others : SetsScores tokenId statistics rest middle after) :
    SetsScores tokenId statistics (dimension :: rest) before after where
  now_le := Nat.le_trans first.now_le others.now_le
  statisticsText?_eq moment other later := by
    rw [others.statisticsText?_eq moment other later,
      first.statisticsText?_eq moment other (Nat.le_trans others.now_le later)]
  score?_eq scored other := by
    rw [others.score?_eq, first.score?_eq]
    by_cases same : other = tokenId
    · by_cases inRest : scored ∈ rest
      · simp [same, inRest]
      · simp [same, inRest]
    · simp [same]

/-- What leaves published data alone may come in front. -/
theorem after_samePublished (same : SamePublished before middle)
    (sets : SetsScores tokenId statistics dimensions middle after) :
    SetsScores tokenId statistics dimensions before after where
  now_le := Nat.le_trans same.now_le sets.now_le
  statisticsText?_eq moment other later := by
    rw [sets.statisticsText?_eq moment other later,
      same.statisticsText?_eq moment other (Nat.le_trans sets.now_le later)]
  score?_eq dimension other := by rw [sets.score?_eq, same.score?_eq]

end SetsScores

theorem Publishes.after_samePublished (same : SamePublished before middle)
    (publishes : Publishes tokenId statistics middle after) :
    Publishes tokenId statistics before after where
  now_le := Nat.le_trans same.now_le publishes.now_le
  statisticsText?_eq moment other later := by
    rw [publishes.statisticsText?_eq moment other later,
      same.statisticsText?_eq moment other (Nat.le_trans publishes.now_le later)]
  score?_eq dimension other := by rw [publishes.score?_eq, same.score?_eq]

end Deployment

namespace Operation

open Deployment

/-- Setting a score succeeds, or it meets an outage and changes nothing that is
published. -/
theorem runOn_rank_cases (tokenId : String) (statistics : CollectionStatistics)
    (dimension : LeaderboardDimension) (before : Deployment) :
    (∃ failure after,
        (askShared (.rank (leaderboardKey dimension) tokenId
          (dimension.score statistics))).runOn before = (.error failure, after) ∧
        SamePublished before after) ∨
      ∃ after,
        (askShared (.rank (leaderboardKey dimension) tokenId
          (dimension.score statistics))).runOn before = (.ok (), after) ∧
        SetsScores tokenId statistics [dimension] before after := by
  rcases runOn_askShared_cases
      (.rank (leaderboardKey dimension) tokenId (dimension.score statistics)) before with
    ⟨_, ran⟩ | ⟨_, ran⟩
  · exact .inl ⟨_, _, ran, .of_shared_eq (Nat.le_refl _) rfl⟩
  · refine .inr ⟨_, ran, Nat.le_refl _, fun _ _ _ => rfl, fun scored other => ?_⟩
    change (before.shared.rankings.add _ _ _).score? (leaderboardKey scored) other = _
    rw [Rankings.score?_add]
    by_cases same : scored = dimension
    · simp [same, eq_comm, score?]
    · have differentKey : leaderboardKey dimension ≠ leaderboardKey scored :=
        fun equal => same (leaderboardKey_injective equal).symm
      simp [same, differentKey, score?]

/-- Setting scores sets those in front of the first request that fails. -/
theorem setsScores_writeScores (tokenId : String) (statistics : CollectionStatistics)
    (dimensions : List LeaderboardDimension) (before : Deployment) :
    SetsScores tokenId statistics (scoredDimensions tokenId statistics dimensions before) before
        ((writeScores tokenId statistics dimensions).runOn before).2 ∧
      (((writeScores tokenId statistics dimensions).runOn before).1.isOk = true →
        scoredDimensions tokenId statistics dimensions before = dimensions) := by
  induction dimensions generalizing before with
  | nil => exact ⟨.of_samePublished (chains_samePublished.refl before), fun _ => rfl⟩
  | cons dimension rest ih =>
      unfold writeScores scoredDimensions
      rcases runOn_rank_cases tokenId statistics dimension before with
        ⟨failure, middle, ran, same⟩ | ⟨middle, ran, sets⟩
      · rw [runOn_bind_of_error ran, ran]
        exact ⟨.of_samePublished same, nofun⟩
      · obtain ⟨setsRest, complete⟩ := ih middle
        rw [runOn_bind_of_ok ran, ran]
        refine ⟨sets.cons setsRest, fun succeeded => ?_⟩
        dsimp only
        rw [complete succeeded]

/-- Publishing breaks off behind some scores, or publishes the statistics. -/
theorem runOn_publish_cases (tokenId : String) (statistics : CollectionStatistics)
    (before : Deployment) :
    (∃ failure after, (publish tokenId statistics).runOn before = (.error failure, after) ∧
        SetsScores tokenId statistics
          (scoredDimensions tokenId statistics LeaderboardDimension.all before) before after) ∨
      ∃ after, (publish tokenId statistics).runOn before = (.ok statistics, after) ∧
        scoredDimensions tokenId statistics LeaderboardDimension.all before =
          LeaderboardDimension.all ∧
        Publishes tokenId statistics before after := by
  unfold publish updateLeaderboards
  obtain ⟨sets, complete⟩ :=
    setsScores_writeScores tokenId statistics LeaderboardDimension.all before
  rcases runOn_cases (writeScores tokenId statistics LeaderboardDimension.all) before with
    ⟨_, scored, ranScores⟩ | ⟨failure, scored, ranScores⟩
  · rw [ranScores] at sets complete
    have allScored := complete rfl
    rw [runOn_bind_of_ok ranScores]
    unfold writeStatistics
    rcases runOn_askShared_cases
        (.keep (statisticsKey tokenId) statistics.toJson.toText) scored with
      ⟨_, ranKeep⟩ | ⟨_, ranKeep⟩
    · left
      refine ⟨_, _, runOn_bind_of_error ranKeep, ?_⟩
      exact ⟨sets.now_le, sets.statisticsText?_eq, sets.score?_eq⟩
    · right
      rw [runOn_bind_of_ok ranKeep, runOn_bind_of_ok (runOn_count _ _)]
      refine ⟨_, rfl, allScored, sets.now_le, fun moment other later => ?_,
        fun dimension other => ?_⟩
      · have fromThen : scored.now ≤ moment := later
        change (scored.shared.entries.put scored.now _ _ none).get? moment _ = _
        rw [ExpiringCache.get?_put_forever fromThen]
        by_cases same : other = tokenId
        · rw [if_pos (by rw [same]), if_pos same]
        · rw [if_neg fun equal => same (statisticsKey_injective equal).symm, if_neg same]
          exact sets.statisticsText?_eq moment other later
      · change scored.score? dimension other = _
        rw [sets.score?_eq, allScored]
        simp only [LeaderboardDimension.mem_all, and_true]
  · rw [ranScores] at sets
    exact .inl ⟨failure, scored, runOn_bind_of_error ranScores, sets⟩

theorem leavesShared_serve (tokenId : String) : LeavesShared (serve tokenId) :=
  .bind (.count _) fun _ => .cachedStatistics tokenId

theorem leavesShared_gather (settings : LeaseSettings) (tokenId : String) :
    LeavesShared (gather settings tokenId) := by
  unfold gather
  exact .bind (.useRegistry _) fun _ => .computeStatistics _ _

/-- A call for statistics loses the claim or gathers nothing, and leaves
published data alone; or it breaks off behind some scores; or it publishes what
it gathered. -/
theorem getStatistics_cases (settings : LeaseSettings) (tokenId : String) (before : Deployment) :
    (scoring? settings tokenId before = none ∧ publication? settings tokenId before = none ∧
        SamePublished before ((getStatistics settings tokenId).runOn before).2) ∨
      (∃ statistics dimensions,
        scoring? settings tokenId before = some (statistics, dimensions) ∧
          publication? settings tokenId before = none ∧
          SetsScores tokenId statistics dimensions before
            ((getStatistics settings tokenId).runOn before).2) ∨
      ∃ statistics, scoring? settings tokenId before = some (statistics, LeaderboardDimension.all) ∧
        publication? settings tokenId before = some statistics ∧
        Publishes tokenId statistics before
          ((getStatistics settings tokenId).runOn before).2 := by
  have keepsClaim := KeepsPublished.claim settings tokenId
  unfold scoring? publication? gathered?
  unfold getStatistics
  rcases claims : (claim settings tokenId).runOn before with ⟨failure | won, claimed⟩
  · rw [runOn_bind_of_error claims]
    exact .inl ⟨rfl, rfl, keepsClaim.of_ran claims⟩
  rw [runOn_bind_of_ok claims]
  have sameClaimed := keepsClaim.of_ran claims
  cases won with
  | false =>
      have keepsRest := KeepsPublished.of_leavesShared (leavesShared_serve tokenId)
      exact .inl ⟨rfl, rfl, chains_samePublished.trans sameClaimed (keepsRest claimed)⟩
  | true =>
      change (_ ∧ ((recompute settings tokenId).runOn claimed).1.toOption = none ∧
        SamePublished before ((recompute settings tokenId).runOn claimed).2) ∨
          (∃ _ _, _ ∧ ((recompute settings tokenId).runOn claimed).1.toOption = none ∧
            SetsScores _ _ _ before ((recompute settings tokenId).runOn claimed).2) ∨
          ∃ statistics, _ ∧ ((recompute settings tokenId).runOn claimed).1.toOption =
            some statistics ∧ Publishes _ _ before ((recompute settings tokenId).runOn claimed).2
      have keepsGather := KeepsPublished.of_leavesShared (leavesShared_gather settings tokenId)
      rw [recompute_eq]
      rcases gathers : (gather settings tokenId).runOn claimed with
        ⟨failure | statistics, gathered⟩
      · have sameGathered := keepsGather.of_ran gathers
        rw [runOn_bind_of_error gathers]
        left
        simp only [gathers]
        exact ⟨rfl, rfl, chains_samePublished.trans sameClaimed sameGathered⟩
      · have sameGathered := chains_samePublished.trans sameClaimed (keepsGather.of_ran gathers)
        rw [runOn_bind_of_ok gathers]
        right
        simp only [gathers]
        rcases runOn_publish_cases tokenId statistics gathered with
          ⟨failure, after, ran, sets⟩ | ⟨after, ran, allScored, publishes⟩
        · left
          rw [ran]
          exact ⟨statistics, _, rfl, rfl, sets.after_samePublished sameGathered⟩
        · right
          rw [ran]
          refine ⟨statistics, ?_, rfl, publishes.after_samePublished sameGathered⟩
          rw [Option.map_some, allScored]

theorem keeps_claim (settings : LeaseSettings) (tokenId : String) :
    Within (Keeps fun deployment =>
        (deployment.market, deployment.pageCap, deployment.registry, deployment.now))
      (claim settings tokenId) := by
  unfold claim
  apply Within.bind (chains_keeps _)
  · apply Within.attempt
    intro deployment
    rcases runOn_askShared_cases
        (.claim (claimKey tokenId) claimMark settings.claimLifetime) deployment with
      ⟨_, ran⟩ | ⟨_, ran⟩
    · rw [ran]
      rfl
    · rw [ran]
      rfl
  · rintro (_ | _)
    · exact (chains_keeps _).refl
    · exact (chains_keeps _).refl

/-- Finding a mapping succeeds just when the registry has it, and only the
registry notices. -/
theorem runOn_lookup_eq_ok {tokenId : String} {info : CollectionInfo} {before after : Deployment}
    (ran : (lookup tokenId).runOn before = (.ok info, after)) :
    (before.registry.lookup before.now tokenId).1 = .ok info ∧
      after = { before with registry := (before.registry.lookup before.now tokenId).2 } := by
  unfold lookup at ran
  rw [runOn_useRegistry] at ran
  obtain ⟨found, rfl⟩ := Prod.mk.inj ran
  cases result : (before.registry.lookup before.now tokenId).1 with
  | error cause =>
      rw [result] at found
      cases found
  | ok mapping =>
      rw [result] at found
      cases found
      exact ⟨rfl, rfl⟩

/-- Gathered statistics are what the marketplace store gives for the collection
that the token identifier stood for, whatever outages there were. -/
theorem computed_of_scoring? {settings : LeaseSettings} {tokenId : String} {before : Deployment}
    {statistics : CollectionStatistics} {dimensions : List LeaderboardDimension}
    (scoring : scoring? settings tokenId before = some (statistics, dimensions)) :
    ∃ info, (before.registry.lookup before.now tokenId).1 = .ok info ∧
      ((computeStatistics info.collectionId settings.batchSize).runOn
        before.withoutOutages).1 = .ok statistics := by
  obtain ⟨⟨result, last⟩, gathered, same⟩ := Option.map_eq_some_iff.mp scoring
  cases same
  unfold gathered? at gathered
  split at gathered
  · next claimed claims =>
    split at gathered
    · next gathers =>
      cases gathered
      obtain ⟨sameMarket, samePageCap, sameRegistry, sameNow⟩ :
          claimed.market = before.market ∧ claimed.pageCap = before.pageCap ∧
            claimed.registry = before.registry ∧ claimed.now = before.now := by
        simpa [Keeps] using (keeps_claim settings tokenId).of_ran claims
      obtain ⟨info, found, ranLookup, ranCompute⟩ := runOn_bind_eq_ok gathers
      obtain ⟨mapped, rfl⟩ := runOn_lookup_eq_ok ranLookup
      rw [sameRegistry, sameNow] at mapped
      have alike : ClearlyLike
          { claimed with registry := (claimed.registry.lookup claimed.now tokenId).2 }
          before.withoutOutages :=
        { market := sameMarket.symm, pageCap := samePageCap.symm, clear := rfl }
      obtain ⟨last, ranClear, -⟩ :=
        AnswersFromMarket.computeStatistics info.collectionId settings.batchSize ranCompute alike
      exact ⟨info, mapped, by rw [ranClear]⟩
    · cases gathered
  · cases gathered

/-- Whoever publishes statistics has set all scores. -/
theorem scoring?_of_publication? {settings : LeaseSettings} {tokenId : String}
    {before : Deployment} {statistics : CollectionStatistics}
    (publication : publication? settings tokenId before = some statistics) :
    scoring? settings tokenId before = some (statistics, LeaderboardDimension.all) := by
  rcases getStatistics_cases settings tokenId before with
    ⟨-, without, -⟩ | ⟨_, _, -, without, -⟩ | ⟨published, scoring, same, -⟩
  · rw [without] at publication
    cases publication
  · rw [without] at publication
    cases publication
  · rw [same] at publication
    cases publication
    exact scoring

end Operation

end MarketStats
