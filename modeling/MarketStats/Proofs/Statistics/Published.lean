import MarketStats.Proofs.Cache.Expiring
import MarketStats.Proofs.Deployment.Shared
import MarketStats.Proofs.Model.Statistics

/-!
# What leaves published statistics alone

Only a recomputation and an invalidation touch what is published.  Every other
part of an operation leaves the statistics of all collections and all scores
as they are, whether or not it succeeds, since claims and statistics are kept
under different keys.
-/

namespace MarketStats

theorem statisticsKey_injective {first second : String}
    (same : statisticsKey first = statisticsKey second) : first = second :=
  (String.append_right_inj _).mp same

theorem leaderboardKey_injective {first second : LeaderboardDimension}
    (same : leaderboardKey first = leaderboardKey second) : first = second := by
  have names : first.name = second.name := (String.append_right_inj _).mp same
  have dimensions : some first = some second := by
    rw [← LeaderboardDimension.ofName?_name first, names, LeaderboardDimension.ofName?_name]
  exact Option.some.inj dimensions

theorem claimKey_ne_statisticsKey (first second : String) :
    claimKey first ≠ statisticsKey second := by
  intro same
  unfold claimKey statisticsKey at same
  have characters := congrArg String.toList same
  rw [String.toList_append, String.toList_append] at characters
  have eighth := congrArg (fun text : List Char => text[7]?) characters
  rw [List.getElem?_append_left (by decide), List.getElem?_append_left (by decide)] at eighth
  exact absurd eighth (by decide)

namespace Deployment

/-- The text of the statistics of a collection that is present at a moment. -/
def statisticsText? (deployment : Deployment) (moment : Nat) (tokenId : String) : Option String :=
  deployment.shared.entries.get? moment (statisticsKey tokenId)

def score? (deployment : Deployment) (dimension : LeaderboardDimension) (tokenId : String) :
    Option Double :=
  deployment.shared.rankings.score? (leaderboardKey dimension) tokenId

/-- The published statistics are the same from now on, and so are the
scores. -/
structure SamePublished (before after : Deployment) : Prop where
  now_le : before.now ≤ after.now
  statisticsText?_eq : ∀ moment tokenId, after.now ≤ moment →
    after.statisticsText? moment tokenId = before.statisticsText? moment tokenId
  score?_eq : ∀ dimension tokenId, after.score? dimension tokenId = before.score? dimension tokenId

theorem SamePublished.of_shared_eq {before after : Deployment} (later : before.now ≤ after.now)
    (same : after.shared = before.shared) : SamePublished before after where
  now_le := later
  statisticsText?_eq _ _ _ := by rw [statisticsText?, same]; rfl
  score?_eq _ _ := by rw [score?, same]; rfl

theorem SamePublished.of_entries {before after : Deployment} (clock : after.now = before.now)
    (rankings : after.shared.rankings = before.shared.rankings)
    (entries : ∀ moment tokenId, before.now ≤ moment →
      after.shared.entries.get? moment (statisticsKey tokenId) =
        before.shared.entries.get? moment (statisticsKey tokenId)) :
    SamePublished before after where
  now_le := by omega
  statisticsText?_eq moment tokenId later := entries moment tokenId (by omega)
  score?_eq _ _ := by rw [score?, rankings]; rfl

end Deployment

namespace Operation

open Deployment

variable {α β : Type}

theorem chains_samePublished : Chains SamePublished where
  refl _ := .of_shared_eq (Nat.le_refl _) rfl
  trans first second :=
    { now_le := Nat.le_trans first.now_le second.now_le
      statisticsText?_eq := fun moment tokenId later => by
        have fromFirst := first.statisticsText?_eq moment tokenId
          (Nat.le_trans second.now_le later)
        rw [second.statisticsText?_eq moment tokenId later, fromFirst]
      score?_eq := fun dimension tokenId => by
        rw [second.score?_eq, first.score?_eq] }

/-- Whether an operation succeeds or fails, it leaves the published statistics
and the scores alone. -/
abbrev KeepsPublished (operation : Operation α) : Prop :=
  Within SamePublished operation

namespace KeepsPublished

theorem of_leavesShared {operation : Operation α} (leaves : LeavesShared operation) :
    KeepsPublished operation :=
  fun deployment => .of_shared_eq (leaves deployment).now_le (leaves deployment).shared_eq

theorem bind {first : Operation α} {second : α → Operation β} (firstKeeps : KeepsPublished first)
    (secondKeeps : ∀ value, KeepsPublished (second value)) : KeepsPublished (first >>= second) :=
  Within.bind chains_samePublished firstKeeps secondKeeps

/-- A claim is put under a key of its own. -/
theorem askShared_claim (tokenId value : String) (lifetime : Nat) :
    KeepsPublished (Operation.askShared (.claim (claimKey tokenId) value lifetime)) := by
  intro deployment
  rcases runOn_askShared_cases (.claim (claimKey tokenId) value lifetime) deployment with
    ⟨_, ran⟩ | ⟨_, ran⟩
  · rw [ran]
    exact .of_shared_eq (Nat.le_refl _) rfl
  · rw [ran]
    refine .of_entries rfl rfl fun moment other later => ?_
    have kept : (deployment.shared.entries.claim deployment.now (claimKey tokenId) value
        lifetime).2.live? moment (statisticsKey other) =
          deployment.shared.entries.live? moment (statisticsKey other) :=
      ExpiringCache.live?_claim_of_ne later (claimKey_ne_statisticsKey tokenId other) value lifetime
    exact congrArg (Option.map CacheEntry.value) kept

theorem claim (settings : LeaseSettings) (tokenId : String) :
    KeepsPublished (Operation.claim settings tokenId) := by
  unfold Operation.claim
  apply bind
  · exact (askShared_claim tokenId claimMark settings.claimLifetime).attempt
  · rintro (_ | _)
    · exact chains_samePublished.refl
    · exact chains_samePublished.refl

end KeepsPublished

theorem runOn_readStatistics (tokenId : String) (before : Deployment) :
    (readStatistics tokenId).runOn before =
      (if before.isStruckBy (.shared (.get (statisticsKey tokenId))) then
          .error (.error (Endpoint.outageError .get))
        else
          match before.statisticsText? before.now tokenId with
          | none => .error (.error (.notFound (statisticsKey tokenId)))
          | some written =>
              match Json.decode? CollectionStatistics.ofJson? (Text.ofString written) with
              | some statistics => .ok statistics
              | none => .error (.error .unreadable),
        before.afterRequest (.shared (.get (statisticsKey tokenId)))) := by
  unfold readStatistics
  rcases runOn_askShared_cases (.get (statisticsKey tokenId)) before with
    ⟨struck, ran⟩ | ⟨passes, ran⟩
  · rw [runOn_bind_of_error ran, if_pos struck]
    rfl
  · have asked : (askShared (.get (statisticsKey tokenId))).runOn before =
        (.ok (before.statisticsText? before.now tokenId),
          before.afterRequest (.shared (.get (statisticsKey tokenId)))) := ran
    rw [runOn_bind_of_ok asked, if_neg (by rw [passes]; decide)]
    cases before.statisticsText? before.now tokenId with
    | none => rfl
    | some written =>
        dsimp only
        cases Json.decode? CollectionStatistics.ofJson? (Text.ofString written) with
        | none => rfl
        | some statistics => rfl

/-- What a read gives, misses are counted or not. -/
theorem runOn_cachedStatistics_fst (tokenId : String) (before : Deployment) :
    ((cachedStatistics tokenId).runOn before).1 = ((readStatistics tokenId).runOn before).1 := by
  unfold cachedStatistics
  rw [runOn_bind, runOn_attempt]
  rcases (readStatistics tokenId).runOn before with ⟨(cause | _ | _ | _) | statistics, after⟩
  · dsimp only
    split
    · rfl
    · rfl
  · rfl
  · rfl
  · rfl
  · rfl

end Operation

end MarketStats
