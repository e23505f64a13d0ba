import MarketStats.Proofs.Deployment.Parts

/-!
# What leaves the shared tier alone

Reads, requests to the marketplace store and everything that concerns the
registry leave the shared tier as it is.  Of the parts of an operation only
claims, scores, published statistics and invalidations change it.
-/

namespace MarketStats

namespace Deployment

/-- The shared tier is the same, perhaps at a later time. -/
structure SameShared (before after : Deployment) : Prop where
  now_le : before.now ≤ after.now
  shared_eq : after.shared = before.shared

end Deployment

namespace Operation

open Deployment

variable {α β : Type}

theorem chains_sameShared : Chains SameShared where
  refl _ := ⟨Nat.le_refl _, rfl⟩
  trans first second :=
    { now_le := Nat.le_trans first.now_le second.now_le
      shared_eq := second.shared_eq.trans first.shared_eq }

/-- Whether an operation succeeds or fails, it leaves the shared tier alone. -/
abbrev LeavesShared (operation : Operation α) : Prop :=
  Within SameShared operation

namespace LeavesShared

theorem askMarket (request : MarketRequest) : LeavesShared (Operation.askMarket request) := by
  intro deployment
  rcases runOn_askMarket_cases request deployment with ⟨_, ran⟩ | ⟨_, _, ran⟩
  · rw [ran]
    exact ⟨Nat.le_refl _, rfl⟩
  · rw [ran]
    exact ⟨Nat.le_refl _, rfl⟩

/-- A request leaves the shared tier alone if its answer does. -/
theorem askShared {request : SharedRequest}
    (reads : ∀ tier now, (SharedTier.perform tier now request).2 = tier) :
    LeavesShared (Operation.askShared request) := by
  intro deployment
  rcases runOn_askShared_cases request deployment with ⟨_, ran⟩ | ⟨_, ran⟩
  · rw [ran]
    exact ⟨Nat.le_refl _, rfl⟩
  · rw [ran]
    exact ⟨Nat.le_refl _, reads deployment.shared deployment.now⟩

theorem useRegistry (use : Nat → Registry → Except StatsError α × Registry) :
    LeavesShared (Operation.useRegistry use) := by
  intro deployment
  rw [runOn_useRegistry]
  exact ⟨Nat.le_refl _, rfl⟩

theorem count (increase : Counters → Counters) : LeavesShared (Operation.count increase) :=
  Within.count (fun _ _ => ⟨Nat.le_refl _, rfl⟩) increase

theorem pure (value : α) : LeavesShared (Pure.pure value : Operation α) :=
  Within.pure chains_sameShared value

theorem fail (cause : StatsError) : LeavesShared (Operation.fail cause : Operation α) :=
  Within.fail chains_sameShared cause

theorem bind {first : Operation α} {second : α → Operation β} (firstLeaves : LeavesShared first)
    (secondLeaves : ∀ value, LeavesShared (second value)) : LeavesShared (first >>= second) :=
  Within.bind chains_sameShared firstLeaves secondLeaves

/-- All requests to the marketplace store, and those requests to the shared tier
that only read. -/
def Leaving : Request → Prop
  | .market _ => True
  | .shared request => ∀ tier now, (SharedTier.perform tier now request).2 = tier

theorem composes : Composes Leaving (fun _ => True) LeavesShared :=
  chains_sameShared.composes (fun _ _ => ⟨Nat.le_refl _, rfl⟩) (fun _ => askMarket _)
    (fun reads => askShared reads) fun _ => useRegistry _

theorem computeStatistics (collectionId : Int64) (batchSize : Nat) :
    LeavesShared (Operation.computeStatistics collectionId batchSize) :=
  composes.computeStatistics (fun _ _ => trivial) collectionId batchSize

theorem cachedStatistics (tokenId : String) :
    LeavesShared (Operation.cachedStatistics tokenId) :=
  composes.cachedStatistics fun _ _ => rfl

theorem leaderboard (request : String) (first last : Int) (descending : Bool) :
    LeavesShared (Operation.leaderboard request first last descending) :=
  composes.leaderboard (fun _ => trivial) (fun _ _ _ => rfl) request first last descending
    fun _ _ _ => rfl

end LeavesShared

/-- An invalidation that succeeds removes its two entries and nothing else. -/
theorem runOn_invalidate_eq_ok {tokenId : String} {before after : Deployment}
    (ran : (invalidate tokenId).runOn before = (.ok (), after)) :
    after.now = before.now ∧ after.shared.rankings = before.shared.rankings ∧
      after.shared.entries =
        before.shared.entries.removeAll [statisticsKey tokenId, claimKey tokenId] := by
  unfold invalidate at ran
  rcases runOn_askShared_cases (.removeAll [statisticsKey tokenId, claimKey tokenId]) before with
    ⟨_, failed⟩ | ⟨_, succeeded⟩
  · rw [failed] at ran
    cases ran
  · rw [succeeded] at ran
    cases ran
    exact ⟨rfl, rfl, rfl⟩

theorem sameShared_of_invalidate_eq_error {tokenId : String} {before after : Deployment}
    {failure : Failure} (ran : (invalidate tokenId).runOn before = (.error failure, after)) :
    SameShared before after := by
  unfold invalidate at ran
  rcases runOn_askShared_cases (.removeAll [statisticsKey tokenId, claimKey tokenId]) before with
    ⟨_, failed⟩ | ⟨_, succeeded⟩
  · rw [failed] at ran
    cases ran
    exact ⟨Nat.le_refl _, rfl⟩
  · rw [succeeded] at ran
    cases ran

end Operation

end MarketStats
