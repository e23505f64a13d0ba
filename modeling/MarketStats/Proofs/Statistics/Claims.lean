import MarketStats.Proofs.Deployment.Requests
import MarketStats.Proofs.Statistics.Served

/-!
# Claims keep everybody else from recomputing

A claim stays in the shared tier until it expires or its collection is
invalidated.  Whatever else happens meanwhile leaves it alone, so every call
for the collection is served what was published last and asks the marketplace
store nothing.  There is at most one recomputation for each claim that was
created, whether or not it succeeded.
-/

namespace MarketStats

theorem claimKey_injective {first second : String} (same : claimKey first = claimKey second) :
    first = second :=
  (String.append_right_inj _).mp same

namespace Deployment

/-- The claim on a collection, if it is live at a moment. -/
def claim? (deployment : Deployment) (moment : Nat) (tokenId : String) : Option CacheEntry :=
  deployment.shared.entries.live? moment (claimKey tokenId)

/-- Claims stay as long as they last. -/
structure HoldsClaims (before after : Deployment) : Prop where
  now_le : before.now ≤ after.now
  claim?_eq : ∀ {moment tokenId entry}, after.now ≤ moment →
    before.claim? moment tokenId = some entry → after.claim? moment tokenId = some entry

/-- Whatever can be seen in the shared tier stays the same. -/
structure SeesSame (before after : Deployment) : Prop where
  now_eq : after.now = before.now
  rankings_eq : after.shared.rankings = before.shared.rankings
  live?_eq : ∀ moment key, before.now ≤ moment →
    after.shared.entries.live? moment key = before.shared.entries.live? moment key

variable {before after : Deployment} {tokenId : String}

theorem HoldsClaims.of_sameShared (same : SameShared before after) :
    HoldsClaims before after where
  now_le := same.now_le
  claim?_eq _ live := by rw [claim?, same.shared_eq]; exact live

namespace SeesSame

theorem of_sameShared (same : SameShared before after) (clock : after.now = before.now) :
    SeesSame before after where
  now_eq := clock
  rankings_eq := by rw [same.shared_eq]
  live?_eq _ _ _ := by rw [same.shared_eq]

theorem samePublished (same : SeesSame before after) : SamePublished before after := by
  refine .of_entries same.now_eq same.rankings_eq fun moment tokenId later => ?_
  exact congrArg (Option.map CacheEntry.value) (same.live?_eq moment _ later)

theorem claim?_eq (same : SeesSame before after) {moment : Nat} (later : before.now ≤ moment)
    (tokenId : String) : after.claim? moment tokenId = before.claim? moment tokenId :=
  same.live?_eq moment _ later

theorem holdsClaims (same : SeesSame before after) : HoldsClaims before after where
  now_le := Nat.le_of_eq same.now_eq.symm
  claim?_eq later live := by rw [same.claim?_eq (by rw [← same.now_eq]; exact later)]; exact live

end SeesSame

/-- An invalidation leaves the claims on other collections alone. -/
theorem claim?_invalidated {other : String}
    (entries : after.shared.entries =
      before.shared.entries.removeAll [statisticsKey other, claimKey other])
    (different : tokenId ≠ other) (moment : Nat) :
    after.claim? moment tokenId = before.claim? moment tokenId := by
  have kept : claimKey tokenId ∉ [statisticsKey other, claimKey other] := by
    simp only [List.mem_cons, List.not_mem_nil, or_false, not_or]
    exact ⟨claimKey_ne_statisticsKey tokenId other, fun same => different (claimKey_injective same)⟩
  rw [claim?, entries, ExpiringCache.live?_removeAll, if_neg kept]
  rfl

end Deployment

namespace Operation

open Deployment

variable {settings : LeaseSettings} {tokenId : String}

theorem chains_holdsClaims : Chains HoldsClaims where
  refl _ := ⟨Nat.le_refl _, fun _ live => live⟩
  trans first second :=
    { now_le := Nat.le_trans first.now_le second.now_le
      claim?_eq := fun later live =>
        second.claim?_eq later (first.claim?_eq (Nat.le_trans second.now_le later) live) }

def claimRequest (settings : LeaseSettings) (tokenId : String) : SharedRequest :=
  .claim (claimKey tokenId) claimMark settings.claimLifetime

/-- A claim is lost, and then nothing can be seen to have changed; or it breaks
off, without a trace either, because the clock cannot tell how long it is to
last; or it is won, and then it is live as long as it was to last.  Only where
there is none it breaks off or is won. -/
theorem runOn_claim_cases (settings : LeaseSettings) (tokenId : String) (before : Deployment) :
    (∃ after, (claim settings tokenId).runOn before = (.ok false, after) ∧
        Made [.shared (claimRequest settings tokenId)] before after ∧ SeesSame before after) ∨
      (before.claim? before.now tokenId = none ∧
        Clock.after? before.now settings.claimLifetime = none ∧
        ∃ after, (claim settings tokenId).runOn before = (.error .clockOverflow, after) ∧
          SeesSame before after) ∨
      (before.claim? before.now tokenId = none ∧
        ∃ after, (claim settings tokenId).runOn before = (.ok true, after) ∧
          HoldsClaims before after ∧
          ∀ moment, moment < before.now + settings.claimLifetime →
            (after.claim? moment tokenId).isSome = true) := by
  unfold claim
  rcases runOn_askShared_cases (claimRequest settings tokenId) before with
    ⟨-, ran⟩ | ⟨-, ran⟩
  · refine .inl ⟨_, runOn_bind_of_ok (runOn_attempt_of_error ran), .one before _, ?_⟩
    exact .of_sameShared ⟨Nat.le_refl _, rfl⟩ rfl
  rcases before.shared.entries.claim_cases before.now (claimKey tokenId) claimMark
      settings.claimLifetime with
    ⟨-, claimed⟩ | ⟨absent, tooLong, claimed⟩ | ⟨expiry, absent, inTime, claimed⟩
  · simp only [claimRequest, SharedTier.perform, claimed] at ran
    refine .inl ⟨_, runOn_bind_of_ok (runOn_attempt_of_ok ran), ⟨rfl, rfl⟩, rfl, rfl, ?_⟩
    exact fun moment key later => ExpiringCache.live?_sweepIfDue later key
  · simp only [claimRequest, SharedTier.perform, claimed] at ran
    refine .inr (.inl ⟨absent, tooLong, _,
      runOn_bind_of_error (runOn_attempt_of_breakOff ran nofun), rfl, rfl, ?_⟩)
    exact fun moment key later => ExpiringCache.live?_sweepIfDue later key
  · simp only [claimRequest, SharedTier.perform, claimed] at ran
    refine .inr (.inr ⟨absent, _, runOn_bind_of_ok (runOn_attempt_of_ok ran),
      ⟨Nat.le_refl _, fun {moment other entry} later present => ?_⟩, fun moment lasts => ?_⟩)
    · have different : claimKey tokenId ≠ claimKey other := by
        intro same
        have expired : before.shared.entries.live? before.now (claimKey other) = some entry := by
          obtain ⟨stored, lasts⟩ := ExpiringCache.live?_eq_some_iff.mp present
          exact ExpiringCache.live?_eq_some_iff.mpr ⟨stored, CacheEntry.isLive_anti later lasts⟩
        rw [← same, absent] at expired
        cases expired
      exact ((ExpiringCache.live?_put later _ _ _ _).trans (if_neg different)).trans present
    · obtain ⟨-, rfl⟩ := Clock.after?_eq_some_iff.mp inTime
      change (ExpiringCache.live? _ moment (claimKey tokenId)).isSome = true
      rw [ExpiringCache.live?_put_self]
      simpa [CacheEntry.isLive] using lasts

/-- Whether a call for the statistics of a collection is to recompute them. -/
def winsClaim (settings : LeaseSettings) (tokenId : String) (before : Deployment) : Bool :=
  ((claim settings tokenId).runOn before).1.toOption == some true

/-- A read gives the same wherever the same can be seen and no outage that
concerns it has come in between. -/
theorem runOn_cachedStatistics_congr {first second : Deployment}
    (same : SeesSame first second)
    (struck : second.isStruckBy (.shared (.get (statisticsKey tokenId))) =
      first.isStruckBy (.shared (.get (statisticsKey tokenId)))) :
    ((cachedStatistics tokenId).runOn second).1 = ((cachedStatistics tokenId).runOn first).1 := by
  have present : second.statisticsText? second.now tokenId =
      first.statisticsText? first.now tokenId := by
    rw [same.now_eq]
    exact same.samePublished.statisticsText?_eq first.now tokenId (Nat.le_of_eq same.now_eq)
  rw [runOn_cachedStatistics_fst, runOn_cachedStatistics_fst, runOn_readStatistics,
    runOn_readStatistics, struck, present]

theorem holdsClaims_publish (tokenId : String) (statistics : CollectionStatistics) :
    Within HoldsClaims (publish tokenId statistics) := by
  have writesScores (dimensions : List LeaderboardDimension) :
      Within HoldsClaims (writeScores tokenId statistics dimensions) := by
    induction dimensions with
    | nil => exact .pure chains_holdsClaims _
    | cons dimension rest ih =>
        refine .bind chains_holdsClaims (fun deployment => ?_) fun _ => ih
        rcases runOn_askShared_cases
            (.rank (leaderboardKey dimension) tokenId (dimension.score statistics)) deployment with
          ⟨_, ran⟩ | ⟨_, ran⟩
        · rw [ran]
          exact ⟨Nat.le_refl _, fun _ live => live⟩
        · rw [ran]
          exact ⟨Nat.le_refl _, fun _ live => live⟩
  unfold publish
  refine .bind chains_holdsClaims (writesScores _) fun _ =>
    .bind chains_holdsClaims (fun deployment => ?_) fun _ =>
      .bind chains_holdsClaims ?_ fun _ => .pure chains_holdsClaims _
  · -- The statistics are put under a key of their own.
    unfold writeStatistics
    rcases runOn_askShared_cases
        (.keep (statisticsKey tokenId) statistics.toJson.toText) deployment with
      ⟨_, ran⟩ | ⟨_, ran⟩
    · rw [ran]
      exact ⟨Nat.le_refl _, fun _ live => live⟩
    · rw [ran]
      refine ⟨Nat.le_refl _, fun {moment other entry} later live => ?_⟩
      have fromThen : deployment.now ≤ moment := later
      change (deployment.shared.entries.put _ _ _ none).live? moment (claimKey other) = some entry
      rw [ExpiringCache.live?_put fromThen, if_neg (claimKey_ne_statisticsKey other tokenId).symm]
      exact live
  · exact .count (fun _ _ => ⟨Nat.le_refl _, fun _ live => live⟩) _

theorem holdsClaims_recompute (settings : LeaseSettings) (tokenId : String) :
    Within HoldsClaims (recompute settings tokenId) := by
  rw [recompute_eq]
  refine .bind chains_holdsClaims (fun deployment => ?_) fun _ => holdsClaims_publish _ _
  exact .of_sameShared (leavesShared_gather settings tokenId deployment)

/-- A call leaves all claims alone, its own one included. -/
theorem holdsClaims_getStatistics (settings : LeaseSettings) (tokenId : String) :
    Within HoldsClaims (getStatistics settings tokenId) := by
  unfold getStatistics
  refine .bind chains_holdsClaims (fun deployment => ?_) fun won => ?_
  · rcases runOn_claim_cases settings tokenId deployment with
      ⟨claimed, ran, -, same⟩ | ⟨-, -, claimed, ran, same⟩ | ⟨-, claimed, ran, holds, -⟩
    · rw [ran]
      exact same.holdsClaims
    · rw [ran]
      exact same.holdsClaims
    · rw [ran]
      exact holds
  · cases won with
    | true => exact holdsClaims_recompute settings tokenId
    | false => exact fun deployment => .of_sameShared (leavesShared_serve tokenId deployment)

/-- A call that wins the claim has left it behind, as long as it was to last. -/
theorem claim?_after_of_winsClaim {before : Deployment}
    (wins : winsClaim settings tokenId before = true) {moment : Nat}
    (later : (before.after (getStatistics settings tokenId)).now ≤ moment)
    (lasts : moment < before.now + settings.claimLifetime) :
    ((before.after (getStatistics settings tokenId)).claim? moment tokenId).isSome = true := by
  unfold winsClaim at wins
  unfold Deployment.after getStatistics at *
  rcases runOn_claim_cases settings tokenId before with
    ⟨claimed, ran, -, -⟩ | ⟨-, -, claimed, ran, -⟩ | ⟨-, claimed, ran, -, claims⟩
  · rw [ran] at wins
    cases wins
  · rw [ran] at wins
    cases wins
  · rw [runOn_bind_of_ok ran] at later ⊢
    obtain ⟨entry, live⟩ := Option.isSome_iff_exists.mp (claims moment lasts)
    have kept := (holdsClaims_recompute settings tokenId claimed).claim?_eq later live
    exact Option.isSome_iff_exists.mpr ⟨entry, kept⟩

theorem winsClaim_eq_false {before : Deployment}
    (live : (before.claim? before.now tokenId).isSome = true) :
    winsClaim settings tokenId before = false := by
  unfold winsClaim
  rcases runOn_claim_cases settings tokenId before with
    ⟨claimed, ran, -, -⟩ | ⟨absent, -⟩ | ⟨absent, -⟩
  · rw [ran]
    rfl
  · rw [absent] at live
    cases live
  · rw [absent] at live
    cases live

/-- A call attempts no recomputation: it loses the claim, asks the marketplace
store nothing, changes nothing that can be seen in the shared tier, and gives
what is published. -/
structure IsServed (settings : LeaseSettings) (tokenId : String) (before : Deployment) :
    Prop where
  losesClaim : winsClaim settings tokenId before = false
  asksNoMarket : AsksOnly (fun request => request.isMarket = false) before
    (before.after (getStatistics settings tokenId))
  claims : ∀ moment other, before.now ≤ moment →
    (before.after (getStatistics settings tokenId)).claim? moment other =
      before.claim? moment other
  published : SamePublished before (before.after (getStatistics settings tokenId))
  answer : ((getStatistics settings tokenId).runOn before).1 =
    ((cachedStatistics tokenId).runOn before).1

theorem asksOnly_serve {allowed : Request → Prop}
    (isAllowed : allowed (.shared (.get (statisticsKey tokenId)))) :
    Within (AsksOnly allowed) (serve tokenId) :=
  (composes_asksOnly allowed).bind ((composes_asksOnly allowed).count _) fun _ =>
    (composes_asksOnly allowed).cachedStatistics isAllowed

/-- While there is a claim on a collection, every call for it is served what is
published. -/
theorem isServed_of_claim? {before : Deployment}
    (live : (before.claim? before.now tokenId).isSome = true) :
    IsServed settings tokenId before := by
  rcases runOn_claim_cases settings tokenId before with
    ⟨claimed, ran, made, same⟩ | ⟨absent, -⟩ | ⟨absent, -⟩
  · have serves : (getStatistics settings tokenId).runOn before =
        (serve tokenId).runOn claimed := by
      unfold getStatistics
      rw [runOn_bind_of_ok ran]
      rfl
    have leaves := leavesShared_serve tokenId claimed
    refine ⟨winsClaim_eq_false live, ?_, ?_, ?_, ?_⟩
    · have servesOnly : Within (AsksOnly fun request => request.isMarket = false)
          (serve tokenId) := asksOnly_serve rfl
      rw [Deployment.after, serves]
      exact (chains_asksOnly _).trans ⟨_, made, List.forall_mem_singleton.mpr rfl⟩
        (servesOnly claimed)
    · intro moment other later
      rw [Deployment.after, serves, Deployment.claim?, leaves.shared_eq]
      exact same.claim?_eq later other
    · rw [Deployment.after, serves]
      exact chains_samePublished.trans same.samePublished
        (.of_shared_eq leaves.now_le leaves.shared_eq)
    · rw [serves, serve, runOn_bind_of_ok (runOn_count _ _)]
      refine runOn_cachedStatistics_congr ?_ ?_
      · exact ⟨same.now_eq, same.rankings_eq, same.live?_eq⟩
      · -- The claim has met outages, but none that concern reads.
        change (Outage.strikeAll claimed.outages _).1 = _
        rw [made.outages]
        have different : (Request.shared (claimRequest settings tokenId)).endpoint ≠
            (Request.shared (.get (statisticsKey tokenId))).endpoint := by
          rintro ⟨⟩
        exact isStruckBy_afterRequest_of_endpoint_ne different before
  · rw [absent] at live
    cases live
  · rw [absent] at live
    cases live

end Operation

namespace ServiceHistory

open Deployment Operation ServiceNote

variable {settings : LeaseSettings} {tokenId : String} {entry : CacheEntry}

/-- A claim is there as long as it lasts, unless its collection was
invalidated, and so it was whenever there was a call for the collection. -/
structure HasClaim (tokenId : String) (entry : CacheEntry) (notes : List ServiceNote)
    (current : Deployment) : Prop where
  claim?_eq : ∀ moment, current.now ≤ moment → entry.isLive moment = true →
    current.claim? moment tokenId = some entry
  calls : ∀ before, .called tokenId before ∈ notes →
    before.claim? before.now tokenId = some entry

theorem isKept_hasClaim (settings : LeaseSettings) (tokenId : String) (entry : CacheEntry) :
    IsKept settings fun notes current =>
      entry.isLive current.now = true → .invalidated tokenId ∉ notes →
        HasClaim tokenId entry notes current where
  unnoticed {notes before after} holds same lasts notInvalidated := by
    have earlier := holds (CacheEntry.isLive_anti same.now_le lasts) notInvalidated
    refine ⟨fun moment later lastsThen => ?_, earlier.calls⟩
    rw [claim?, same.shared_eq]
    exact earlier.claim?_eq moment (Nat.le_trans same.now_le later) lastsThen
  called {notes before} other holds lasts notInvalidated := by
    have kept := holdsClaims_getStatistics settings other before
    have lastsBefore := CacheEntry.isLive_anti kept.now_le lasts
    have earlier := holds lastsBefore fun noted =>
      notInvalidated (List.mem_cons_of_mem _ noted)
    refine ⟨fun moment later lastsThen => ?_, fun deployment noted => ?_⟩
    · exact kept.claim?_eq later
        (earlier.claim?_eq moment (Nat.le_trans kept.now_le later) lastsThen)
    · rcases List.mem_cons.mp noted with isThis | inEarlier
      · cases isThis
        exact earlier.claim?_eq _ (Nat.le_refl _) lastsBefore
      · exact earlier.calls deployment inEarlier
  invalidated {notes before after other} holds ran lasts notInvalidated := by
    obtain ⟨clock, -, entries⟩ := runOn_invalidate_eq_ok ran
    obtain ⟨different, notEarlier⟩ := not_or.mp (fun either =>
      notInvalidated (List.mem_cons.mpr either))
    rw [clock] at lasts
    have earlier := holds lasts notEarlier
    refine ⟨fun moment later lastsThen => ?_, fun deployment noted => ?_⟩
    · rw [claim?_invalidated entries fun same => different (by rw [same])]
      exact earlier.claim?_eq moment (by omega) lastsThen
    · rcases List.mem_cons.mp noted with isThis | inEarlier
      · cases isThis
      · exact earlier.calls deployment inEarlier

/-- Two calls for a collection that both win the claim, without an invalidation
in between, are further apart than a claim lasts. -/
structure KeepsApart (settings : LeaseSettings) (tokenId : String) (notes : List ServiceNote)
    (current : Deployment) : Prop where
  claimed : ∀ {later first earlier}, notes = later ++ .called tokenId first :: earlier →
    winsClaim settings tokenId first = true → .invalidated tokenId ∉ later →
      ∀ moment, current.now ≤ moment → moment < first.now + settings.claimLifetime →
        (current.claim? moment tokenId).isSome = true
  apart : ∀ {later second middle first earlier},
    notes = later ++ .called tokenId second :: (middle ++ .called tokenId first :: earlier) →
      winsClaim settings tokenId first = true → winsClaim settings tokenId second = true →
        .invalidated tokenId ∉ middle → first.now + settings.claimLifetime ≤ second.now

theorem isKept_keepsApart (settings : LeaseSettings) (tokenId : String) :
    IsKept settings (KeepsApart settings tokenId) where
  unnoticed {notes before after} holds same := by
    refine ⟨fun split wins notInvalidated moment later lasts => ?_, holds.apart⟩
    rw [claim?, same.shared_eq]
    exact holds.claimed split wins notInvalidated moment (Nat.le_trans same.now_le later) lasts
  called {notes before} other holds := by
    have kept := holdsClaims_getStatistics settings other before
    constructor
    · intro later first earlier split wins notInvalidated moment notBefore lasts
      rcases List.cons_eq_append_iff.mp split with ⟨rfl, same⟩ | ⟨rest, rfl, splitEarlier⟩
      · cases same
        exact claim?_after_of_winsClaim wins notBefore lasts
      · have live := holds.claimed splitEarlier wins
          (fun noted => notInvalidated (List.mem_cons_of_mem _ noted)) moment
          (Nat.le_trans kept.now_le notBefore) lasts
        obtain ⟨entry, present⟩ := Option.isSome_iff_exists.mp live
        exact Option.isSome_iff_exists.mpr ⟨entry, kept.claim?_eq notBefore present⟩
    · intro later second middle first earlier split winsFirst winsSecond notInvalidated
      rcases List.cons_eq_append_iff.mp split with ⟨rfl, same⟩ | ⟨rest, rfl, splitEarlier⟩
      · -- The second call is the one that is noted now.
        cases same
        apply Nat.not_lt.mp
        intro early
        have live := holds.claimed rfl winsFirst notInvalidated _ (Nat.le_refl _) early
        rw [winsClaim_eq_false live] at winsSecond
        cases winsSecond
      · exact holds.apart splitEarlier winsFirst winsSecond notInvalidated
  invalidated {notes before after other} holds ran := by
    obtain ⟨clock, -, entries⟩ := runOn_invalidate_eq_ok ran
    constructor
    · intro later first earlier split wins notInvalidated moment notBefore lasts
      rcases List.cons_eq_append_iff.mp split with ⟨rfl, same⟩ | ⟨rest, rfl, splitEarlier⟩
      · cases same
      · obtain ⟨different, notInRest⟩ := not_or.mp (fun either =>
          notInvalidated (List.mem_cons.mpr either))
        rw [claim?_invalidated entries fun same => different (by rw [same])]
        exact holds.claimed splitEarlier wins notInRest moment (by omega) lasts
    · intro later second middle first earlier split winsFirst winsSecond notInvalidated
      rcases List.cons_eq_append_iff.mp split with ⟨rfl, same⟩ | ⟨rest, rfl, splitEarlier⟩
      · cases same
      · exact holds.apart splitEarlier winsFirst winsSecond notInvalidated

/-- While the claim on a collection lasts and the collection is not invalidated,
the claim stays, and every call for the collection is served what is published.
Two recomputations of a collection without an invalidation in between are
further apart than a claim lasts, whether or not they succeed. -/
theorem isServed_while_claimed (settings : LeaseSettings) (deployment : Deployment)
    (events : List ServiceEvent) (tokenId : String) :
    (∀ entry, deployment.claim? deployment.now tokenId = some entry →
        entry.isLive (ofEvents settings deployment events).current.now = true →
        .invalidated tokenId ∉ (ofEvents settings deployment events).notes →
          (ofEvents settings deployment events).current.claim?
              (ofEvents settings deployment events).current.now tokenId = some entry ∧
            ∀ before, .called tokenId before ∈ (ofEvents settings deployment events).notes →
              before.claim? before.now tokenId = some entry ∧ IsServed settings tokenId before) ∧
      ∀ later second middle first earlier,
        (ofEvents settings deployment events).notes =
            later ++ .called tokenId second :: (middle ++ .called tokenId first :: earlier) →
        winsClaim settings tokenId first = true → winsClaim settings tokenId second = true →
        .invalidated tokenId ∉ middle →
          first.now + settings.claimLifetime ≤ second.now := by
  constructor
  · intro entry claimed lasts notInvalidated
    have atStart : HasClaim tokenId entry [] deployment :=
      { claim?_eq := fun moment _ lasts => ExpiringCache.live?_of_isLive claimed lasts
        calls := fun _ noted => nomatch noted }
    have hasClaim := (isKept_hasClaim settings tokenId entry).ofEvents
      (fun _ _ => atStart) events lasts notInvalidated
    refine ⟨hasClaim.claim?_eq _ (Nat.le_refl _) lasts, fun before noted => ?_⟩
    have present := hasClaim.calls before noted
    exact ⟨present, isServed_of_claim? (by rw [present]; rfl)⟩
  · intro later second middle first earlier split winsFirst winsSecond notInvalidated
    have atStart : KeepsApart settings tokenId [] deployment :=
      { claimed := fun split => by simp at split
        apart := fun split => by simp at split }
    have keepsApart := (isKept_keepsApart settings tokenId).ofEvents atStart events
    exact keepsApart.apart split winsFirst winsSecond notInvalidated

/-- A deployment on which the statistics of a collection have just been
recomputed. -/
def recomputedOnce : Deployment :=
  (ofEvents .quarterHour (.empty 0 30 1048576 3600 none)
    [.register { tokenId := "ALPHA", collectionId := 1, name := "Alpha" },
      .getStatistics "ALPHA"]).current

/-- A claim that cannot be made, a new process, and another claim. -/
def withinClaim : List ServiceEvent :=
  [.meet [{ endpoint := .claim, labelStart := "", skip := 0, remaining := some 1 }],
    .getStatistics "ALPHA", .restart, .wait 899, .getStatistics "ALPHA"]

def twoClaims : List ServiceEvent :=
  [.wait 900, .getStatistics "ALPHA", .wait 900, .getStatistics "ALPHA"]

theorem isServed_while_claimed_restarted :
    (∃ entry first second,
        recomputedOnce.claim? recomputedOnce.now "ALPHA" = some entry ∧
          entry.isLive (ofEvents .quarterHour recomputedOnce withinClaim).current.now = true ∧
          (ofEvents .quarterHour recomputedOnce withinClaim).notes =
            [.called "ALPHA" second, .called "ALPHA" first] ∧
          IsServed .quarterHour "ALPHA" first ∧ IsServed .quarterHour "ALPHA" second) ∧
      ∃ first second,
        (ofEvents .quarterHour recomputedOnce twoClaims).notes =
            [.called "ALPHA" second, .called "ALPHA" first] ∧
          winsClaim .quarterHour "ALPHA" first = true ∧
          winsClaim .quarterHour "ALPHA" second = true ∧
          first.now + LeaseSettings.quarterHour.claimLifetime ≤ second.now := by
  constructor
  · have claimed : recomputedOnce.claim? recomputedOnce.now "ALPHA" =
        some ⟨claimMark, some 900⟩ := by
      decide +kernel
    have lasts : (⟨claimMark, some 900⟩ : CacheEntry).isLive
        (ofEvents .quarterHour recomputedOnce withinClaim).current.now = true := by
      decide +kernel
    have notes : (ofEvents .quarterHour recomputedOnce withinClaim).notes =
        [.called "ALPHA" (ofEvents .quarterHour recomputedOnce (withinClaim.take 4)).current,
          .called "ALPHA" (ofEvents .quarterHour recomputedOnce (withinClaim.take 1)).current] := by
      simp [withinClaim, ofEvents, extend, ofEvent, start]
    obtain ⟨-, served⟩ := (isServed_while_claimed .quarterHour recomputedOnce withinClaim
      "ALPHA").1 _ claimed lasts (by rw [notes]; simp)
    rw [notes] at served
    exact ⟨_, _, _, claimed, lasts, notes,
      (served _ (List.mem_cons_of_mem _ List.mem_cons_self)).2, (served _ List.mem_cons_self).2⟩
  · have notes : (ofEvents .quarterHour recomputedOnce twoClaims).notes =
        [.called "ALPHA" (ofEvents .quarterHour recomputedOnce (twoClaims.take 3)).current,
          .called "ALPHA" (ofEvents .quarterHour recomputedOnce (twoClaims.take 1)).current] := by
      simp [twoClaims, ofEvents, extend, ofEvent, start]
    have winsFirst : winsClaim .quarterHour "ALPHA"
        (ofEvents .quarterHour recomputedOnce (twoClaims.take 1)).current = true := by
      decide +kernel
    have winsSecond : winsClaim .quarterHour "ALPHA"
        (ofEvents .quarterHour recomputedOnce (twoClaims.take 3)).current = true := by
      decide +kernel
    exact ⟨_, _, notes, winsFirst, winsSecond,
      (isServed_while_claimed .quarterHour recomputedOnce twoClaims "ALPHA").2 [] _ [] _ [] notes
        winsFirst winsSecond List.not_mem_nil⟩

end ServiceHistory

end MarketStats
