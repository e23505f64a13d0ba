import MarketStats.Proofs.Deployment.Parts
import MarketStats.Proofs.Registry.Agreement
import MarketStats.Proofs.Statistics.Claims

/-!
# Collections do not notice each other

Everything that is kept of a collection is kept under its token identifier: the
claim and the statistics under keys of their own, the scores under one member of
each ranking, and the local copy of the mapping under another key.  A call for
one collection therefore reads and writes nothing that belongs to another one,
and two calls for different collections may change places.
-/

namespace MarketStats

theorem ne_of_mem_entryKeys {tokenId other key otherKey : String} (different : tokenId ≠ other)
    (listed : key ∈ entryKeys tokenId) (otherListed : otherKey ∈ entryKeys other) :
    key ≠ otherKey := by
  simp only [entryKeys, List.mem_cons, List.not_mem_nil, or_false] at listed otherListed
  rcases listed with rfl | rfl <;> rcases otherListed with rfl | rfl
  · exact fun same => different (statisticsKey_injective same)
  · exact (claimKey_ne_statisticsKey other tokenId).symm
  · exact claimKey_ne_statisticsKey tokenId other
  · exact fun same => different (claimKey_injective same)

namespace SharedTier

/-- From a moment on two shared tiers have the same entries and the same scores
of a collection. -/
structure AgreesOn (tokenId : String) (now : Nat) (first second : SharedTier) : Prop where
  live?_eq : ∀ moment key, now ≤ moment → key ∈ entryKeys tokenId →
    second.entries.live? moment key = first.entries.live? moment key
  score?_eq : ∀ key, second.rankings.score? key tokenId = first.rankings.score? key tokenId

variable {tokenId other : String} {now : Nat} {first second third : SharedTier}

namespace AgreesOn

theorem refl (tier : SharedTier) : AgreesOn tokenId now tier tier :=
  ⟨fun _ _ _ _ => rfl, fun _ => rfl⟩

theorem symm (agrees : AgreesOn tokenId now first second) : AgreesOn tokenId now second first where
  live?_eq moment key later own := (agrees.live?_eq moment key later own).symm
  score?_eq key := (agrees.score?_eq key).symm

theorem trans (agrees : AgreesOn tokenId now first second)
    (agreesNext : AgreesOn tokenId now second third) : AgreesOn tokenId now first third where
  live?_eq moment key later own :=
    (agreesNext.live?_eq moment key later own).trans (agrees.live?_eq moment key later own)
  score?_eq key := (agreesNext.score?_eq key).trans (agrees.score?_eq key)

/-- A request in the name of one collection changes nothing of another one. -/
theorem perform_of_ne (different : tokenId ≠ other) {request : SharedRequest}
    (concerns : request.Concerns tokenId) (tier : SharedTier) (now : Nat) :
    AgreesOn other now tier (tier.perform now request).2 := by
  cases concerns with
  | get own => exact refl tier
  | keep own value =>
      refine ⟨fun moment otherKey later otherOwn => ?_, fun _ => rfl⟩
      have apart := ne_of_mem_entryKeys different own otherOwn
      exact (ExpiringCache.live?_put later _ _ _ _).trans (if_neg apart)
  | claim own value lifetime =>
      refine ⟨fun moment otherKey later otherOwn => ?_, fun _ => rfl⟩
      have apart := ne_of_mem_entryKeys different own otherOwn
      exact ExpiringCache.live?_claim_of_ne later apart _ _
  | removeAll own =>
      refine ⟨fun moment otherKey later otherOwn => ?_, fun _ => rfl⟩
      refine (ExpiringCache.live?_removeAll _ _).trans (if_neg fun removed => ?_)
      exact ne_of_mem_entryKeys different (own _ removed) otherOwn rfl
  | rank key score =>
      refine ⟨fun _ _ _ _ => rfl, fun otherKey => ?_⟩
      exact (Rankings.score?_add _ _ _ _ _ _).trans (if_neg fun both => different both.2)

/-- A claim looks only at the entry that it is to put. -/
theorem claim (agrees : AgreesOn tokenId now first second) {key : String}
    (own : key ∈ entryKeys tokenId) (value : String) (lifetime : Nat) :
    (second.entries.claim now key value lifetime).1 =
        (first.entries.claim now key value lifetime).1 ∧
      ∀ moment otherKey, now ≤ moment → otherKey ∈ entryKeys tokenId →
        (second.entries.claim now key value lifetime).2.live? moment otherKey =
          (first.entries.claim now key value lifetime).2.live? moment otherKey := by
  have sameEntry := agrees.live?_eq now key (Nat.le_refl now) own
  have sameSwept (moment : Nat) (otherKey : String) (later : now ≤ moment)
      (listed : otherKey ∈ entryKeys tokenId) :
      (second.entries.sweepIfDue now).live? moment otherKey =
        (first.entries.sweepIfDue now).live? moment otherKey := by
    rw [ExpiringCache.live?_sweepIfDue later, ExpiringCache.live?_sweepIfDue later]
    exact agrees.live?_eq moment otherKey later listed
  rcases first.entries.claim_cases now key value lifetime with
    ⟨present, claimed⟩ | ⟨absent, tooLong, claimed⟩ | ⟨expiry, absent, inTime, claimed⟩
  · rw [claimed, ExpiringCache.claim_of_isSome (by rw [sameEntry]; exact present)]
    exact ⟨rfl, sameSwept⟩
  · rw [claimed, ExpiringCache.claim_of_overflow (sameEntry.trans absent) tooLong]
    exact ⟨rfl, sameSwept⟩
  · rw [claimed, ExpiringCache.claim_eq_put (sameEntry.trans absent) inTime]
    refine ⟨rfl, fun moment otherKey later listed => ?_⟩
    rw [ExpiringCache.live?_put later, ExpiringCache.live?_put later]
    split
    · rfl
    · exact agrees.live?_eq moment otherKey later listed

/-- A request in the name of a collection sees only what is kept of it. -/
theorem perform (agrees : AgreesOn tokenId now first second) {request : SharedRequest}
    (concerns : request.Concerns tokenId) :
    (second.perform now request).1 = (first.perform now request).1 ∧
      AgreesOn tokenId now (first.perform now request).2 (second.perform now request).2 := by
  cases concerns with
  | get own =>
      refine ⟨congrArg Except.ok ?_, agrees⟩
      exact congrArg (Option.map CacheEntry.value) (agrees.live?_eq now _ (Nat.le_refl now) own)
  | keep own value =>
      refine ⟨rfl, fun moment otherKey later listed => ?_, agrees.score?_eq⟩
      change (second.entries.put _ _ _ _).live? _ _ = (first.entries.put _ _ _ _).live? _ _
      rw [ExpiringCache.live?_put later, ExpiringCache.live?_put later,
        agrees.live?_eq moment otherKey later listed]
  | claim own value lifetime =>
      obtain ⟨sameAnswer, sameEntries⟩ := agrees.claim own value lifetime
      exact ⟨sameAnswer, sameEntries, agrees.score?_eq⟩
  | removeAll own =>
      refine ⟨rfl, fun moment otherKey later listed => ?_, agrees.score?_eq⟩
      change (second.entries.removeAll _).live? _ _ = (first.entries.removeAll _).live? _ _
      rw [ExpiringCache.live?_removeAll, ExpiringCache.live?_removeAll,
        agrees.live?_eq moment otherKey later listed]
  | rank key score =>
      refine ⟨rfl, agrees.live?_eq, fun otherKey => ?_⟩
      change (second.rankings.add _ _ _).score? _ _ = (first.rankings.add _ _ _).score? _ _
      rw [Rankings.score?_add, Rankings.score?_add, agrees.score?_eq]

end AgreesOn

end SharedTier

namespace Deployment

/-- Two deployments agree on a token identifier: they have the same marketplace
store, and whatever is kept of the collection is the same. -/
structure AgreesOn (tokenId : String) (first second : Deployment) : Prop where
  now_eq : second.now = first.now
  market_eq : second.market = first.market
  pageCap_eq : second.pageCap = first.pageCap
  shared : first.shared.AgreesOn tokenId first.now second.shared
  registry : first.registry.AgreesOn tokenId second.registry

/-- Two deployments without outages agree on a token identifier. -/
structure ClearlyAgreesOn (tokenId : String) (first second : Deployment) : Prop where
  agrees : first.AgreesOn tokenId second
  first_clear : first.outages = []
  second_clear : second.outages = []

namespace AgreesOn

variable {tokenId : String} {first second third : Deployment}

theorem refl (deployment : Deployment) : deployment.AgreesOn tokenId deployment :=
  ⟨rfl, rfl, rfl, .refl _, .refl _⟩

theorem symm (agrees : first.AgreesOn tokenId second) : second.AgreesOn tokenId first where
  now_eq := agrees.now_eq.symm
  market_eq := agrees.market_eq.symm
  pageCap_eq := agrees.pageCap_eq.symm
  shared := by
    rw [agrees.now_eq]
    exact agrees.shared.symm
  registry := agrees.registry.symm

theorem trans (agrees : first.AgreesOn tokenId second)
    (agreesNext : second.AgreesOn tokenId third) : first.AgreesOn tokenId third where
  now_eq := agreesNext.now_eq.trans agrees.now_eq
  market_eq := agreesNext.market_eq.trans agrees.market_eq
  pageCap_eq := agreesNext.pageCap_eq.trans agrees.pageCap_eq
  shared := by
    have sharedNext := agreesNext.shared
    rw [agrees.now_eq] at sharedNext
    exact agrees.shared.trans sharedNext
  registry := agrees.registry.trans agreesNext.registry

end AgreesOn

end Deployment

namespace Operation

open Deployment

variable {α β : Type} {tokenId other : String}

theorem chains_agreesOn (tokenId : String) : Chains (AgreesOn tokenId) where
  refl := .refl
  trans := .trans

/-- An operation in the name of a collection: it leaves alone what is kept of
others, and without outages it sees only what is kept of the collection. -/
structure Concerns (tokenId : String) (operation : Operation α) : Prop where
  leaves : ∀ other, tokenId ≠ other → Within (AgreesOn other) operation
  respects : Respects (ClearlyAgreesOn tokenId) operation

namespace Concerns

theorem askMarket {request : MarketRequest} (reads : request.Reads) :
    Concerns tokenId (Operation.askMarket request) where
  leaves other _ deployment := by
    rcases runOn_askMarket_cases request deployment with ⟨_, ran⟩ | ⟨_, _, ran⟩
    · rw [ran]
      exact ⟨rfl, rfl, rfl, .refl _, .refl _⟩
    · rw [ran]
      exact ⟨rfl, reads _ _, rfl, .refl _, .refl _⟩
  respects first second related := by
    have agrees := related.agrees
    rw [runOn_askMarket, runOn_askMarket, isStruckBy_of_no_outages related.first_clear,
      isStruckBy_of_no_outages related.second_clear, agrees.market_eq, agrees.pageCap_eq]
    refine ⟨rfl, ?_, ?_, ?_⟩
    · exact ⟨agrees.now_eq, rfl, agrees.pageCap_eq, agrees.shared, agrees.registry⟩
    · exact outages_afterRequest_of_no_outages related.first_clear _
    · exact outages_afterRequest_of_no_outages related.second_clear _

theorem askShared {request : SharedRequest} (concerns : request.Concerns tokenId) :
    Concerns tokenId (Operation.askShared request) where
  leaves other different deployment := by
    rcases runOn_askShared_cases request deployment with ⟨_, ran⟩ | ⟨_, ran⟩
    · rw [ran]
      exact ⟨rfl, rfl, rfl, .refl _, .refl _⟩
    · rw [ran]
      exact ⟨rfl, rfl, rfl, .perform_of_ne different concerns _ _, .refl _⟩
  respects first second related := by
    have agrees := related.agrees
    rw [runOn_askShared, runOn_askShared, isStruckBy_of_no_outages related.first_clear,
      isStruckBy_of_no_outages related.second_clear, agrees.now_eq]
    obtain ⟨sameAnswer, agreesShared⟩ := agrees.shared.perform concerns
    refine ⟨sameAnswer, ?_, ?_, ?_⟩
    · exact ⟨agrees.now_eq, agrees.market_eq, agrees.pageCap_eq, agreesShared, agrees.registry⟩
    · exact outages_afterRequest_of_no_outages related.first_clear _
    · exact outages_afterRequest_of_no_outages related.second_clear _

theorem lookup (tokenId : String) : Concerns tokenId (Operation.lookup tokenId) where
  leaves other different deployment := by
    unfold Operation.lookup
    rw [runOn_useRegistry]
    exact ⟨rfl, rfl, rfl, .refl _, .lookup_of_ne different _ _⟩
  respects first second related := by
    have agrees := related.agrees
    obtain ⟨sameAnswer, agreesRegistry⟩ := agrees.registry.lookup first.now
    unfold Operation.lookup
    rw [runOn_useRegistry, runOn_useRegistry]
    refine ⟨by rw [agrees.now_eq, sameAnswer], ?_, related.first_clear, related.second_clear⟩
    refine ⟨agrees.now_eq, agrees.market_eq, agrees.pageCap_eq, agrees.shared, ?_⟩
    change (first.registry.lookup first.now tokenId).2.AgreesOn tokenId
      (second.registry.lookup second.now tokenId).2
    rw [agrees.now_eq]
    exact agreesRegistry

/-- The requests in the name of a collection. -/
def Own (tokenId : String) : Request → Prop
  | .market request => request.Reads
  | .shared request => request.Concerns tokenId

theorem composes (tokenId : String) :
    Composes (Own tokenId) (· = tokenId) (Concerns tokenId) where
  pure value :=
    { leaves := fun other _ => .pure (chains_agreesOn other) value
      respects := .pure value }
  fail cause :=
    { leaves := fun other _ => .fail (chains_agreesOn other) cause
      respects := .fail cause }
  bind concerns concernsNext :=
    { leaves := fun other different => .bind (chains_agreesOn other)
        (concerns.leaves other different) fun value => (concernsNext value).leaves other different
      respects := .bind concerns.respects fun value => (concernsNext value).respects }
  attempt concerns :=
    { leaves := fun other different => (concerns.leaves other different).attempt
      respects := concerns.respects.attempt }
  count increase :=
    { leaves := fun _ _ => .count (fun _ _ => ⟨rfl, rfl, rfl, .refl _, .refl _⟩) increase
      respects := fun _ _ related =>
        ⟨rfl, ⟨related.agrees.now_eq, related.agrees.market_eq, related.agrees.pageCap_eq,
          related.agrees.shared, related.agrees.registry⟩, related.first_clear,
          related.second_clear⟩ }
  askMarket := askMarket
  askShared := askShared
  lookup := by
    rintro _ rfl
    exact lookup _
  seeMarket next concerns :=
    { leaves := fun other different deployment =>
        (concerns deployment.market).leaves other different deployment
      respects := fun first second related => by
        rw [runOn_bind_of_ok (runOn_get _), runOn_bind_of_ok (runOn_get _),
          related.agrees.market_eq]
        exact (concerns first.market).respects first second related }

theorem getStatistics (settings : LeaseSettings) (tokenId : String) :
    Concerns tokenId (Operation.getStatistics settings tokenId) :=
  (composes tokenId).getStatistics (fun _ => id) settings (fun _ => id) rfl

theorem cachedStatistics (tokenId : String) :
    Concerns tokenId (Operation.cachedStatistics tokenId) :=
  (composes tokenId).cachedStatistics (.get List.mem_cons_self)

theorem invalidate (tokenId : String) : Concerns tokenId (Operation.invalidate tokenId) :=
  (composes tokenId).invalidate fun _ => id

end Concerns

end Operation

/-- What may be done to the statistics of a collection. -/
inductive TokenOperation
  | getStatistics
  | invalidate
deriving DecidableEq

namespace TokenOperation

abbrev Answer : TokenOperation → Type
  | .getStatistics => CollectionStatistics
  | .invalidate => Unit

def on (settings : LeaseSettings) (tokenId : String) :
    (operation : TokenOperation) → Operation operation.Answer
  | .getStatistics => Operation.getStatistics settings tokenId
  | .invalidate => Operation.invalidate tokenId

theorem concerns (settings : LeaseSettings) (tokenId : String) (operation : TokenOperation) :
    Operation.Concerns tokenId (operation.on settings tokenId) := by
  cases operation with
  | getStatistics => exact .getStatistics settings tokenId
  | invalidate => exact .invalidate tokenId

end TokenOperation

namespace Deployment

open Operation

def waited (deployment : Deployment) (span : Nat) : Deployment :=
  { deployment with now := deployment.now + span }

/-- From now on two deployments show the same claim on a collection, the same
published statistics, and the same scores along every ranking. -/
structure ShowsSame (tokenId : String) (first second : Deployment) : Prop where
  claim?_eq : ∀ moment, first.now ≤ moment →
    second.claim? moment tokenId = first.claim? moment tokenId
  cachedStatistics_eq : ∀ span,
    ((cachedStatistics tokenId).runOn (second.waited span).withoutOutages).1 =
      ((cachedStatistics tokenId).runOn (first.waited span).withoutOutages).1
  score?_eq : ∀ key,
    second.shared.rankings.score? key tokenId = first.shared.rankings.score? key tokenId

/-- Two deployments show the same of every collection, and their registries
answer all that they may be asked, one thing after the other, in the same
way. -/
structure LooksSame (first second : Deployment) : Prop where
  now_eq : second.now = first.now
  shows : ∀ tokenId, first.ShowsSame tokenId second
  registry : ∀ events event,
    ((Registry.Session.after ⟨second.registry, second.now⟩ events).meet event).1 =
      ((Registry.Session.after ⟨first.registry, first.now⟩ events).meet event).1

variable {first second : Deployment} {tokenId : String}

theorem AgreesOn.showsSame (agrees : first.AgreesOn tokenId second) :
    first.ShowsSame tokenId second where
  claim?_eq moment later :=
    agrees.shared.live?_eq moment _ later (List.mem_cons_of_mem _ List.mem_cons_self)
  cachedStatistics_eq span := by
    have later : (first.waited span).withoutOutages.AgreesOn tokenId
        (second.waited span).withoutOutages :=
      { now_eq := congrArg (· + span) agrees.now_eq
        market_eq := agrees.market_eq
        pageCap_eq := agrees.pageCap_eq
        shared :=
          { live?_eq := fun moment key notBefore =>
              agrees.shared.live?_eq moment key (Nat.le_trans (Nat.le_add_right _ _) notBefore)
            score?_eq := agrees.shared.score?_eq }
        registry := agrees.registry }
    exact ((Concerns.cachedStatistics tokenId).respects _ _ ⟨later, rfl, rfl⟩).1
  score?_eq := agrees.shared.score?_eq

theorem LooksSame.of_agreesOn (agrees : ∀ tokenId, first.AgreesOn tokenId second) :
    first.LooksSame second where
  now_eq := (agrees "").now_eq
  shows tokenId := (agrees tokenId).showsSame
  registry events event := by
    rw [(agrees "").now_eq]
    exact Registry.Session.meet_after_of_agrees (fun tokenId => (agrees tokenId).registry) events
      event

end Deployment

namespace TokenOperation

open Deployment Operation

variable {settings : LeaseSettings} {firstId secondId : String} {start : Deployment}

/-- Without outages an operation answers the same behind an operation on
another collection, and leaves behind the same of its collection. -/
theorem respects_other (different : firstId ≠ secondId) (clear : start.outages = [])
    (first second : TokenOperation) :
    ((first.on settings firstId).runOn (start.after (second.on settings secondId))).1 =
        ((first.on settings firstId).runOn start).1 ∧
      (start.after (first.on settings firstId)).AgreesOn firstId
        ((start.after (second.on settings secondId)).after (first.on settings firstId)) := by
  have stillClear : (start.after (second.on settings secondId)).outages = [] := by
    have respects := (second.concerns settings secondId).respects start start
    exact (respects ⟨.refl start, clear, clear⟩).2.second_clear
  have unnoticed : start.AgreesOn firstId (start.after (second.on settings secondId)) :=
    (second.concerns settings secondId).leaves firstId (Ne.symm different) start
  obtain ⟨sameAnswer, agreesAfter⟩ :=
    (first.concerns settings firstId).respects _ _ ⟨unnoticed, clear, stillClear⟩
  exact ⟨sameAnswer, agreesAfter.agrees⟩

/-- Operations on different collections may change places: without outages each
of them answers the same, and nobody can tell afterwards which came first.
Whatever outages there are, an operation on one collection shows on no other
collection. -/
theorem independent_of_other (different : firstId ≠ secondId) (settings : LeaseSettings)
    (first second : TokenOperation) (start : Deployment) :
    start.ShowsSame secondId (start.after (first.on settings firstId)) ∧
      (start.outages = [] →
        ((first.on settings firstId).runOn (start.after (second.on settings secondId))).1 =
            ((first.on settings firstId).runOn start).1 ∧
          ((second.on settings secondId).runOn (start.after (first.on settings firstId))).1 =
            ((second.on settings secondId).runOn start).1 ∧
          ((start.after (first.on settings firstId)).after (second.on settings secondId)).LooksSame
            ((start.after (second.on settings secondId)).after (first.on settings firstId))) := by
  have leavesSecond (deployment : Deployment) {other : String} (isOther : firstId ≠ other) :
      deployment.AgreesOn other (deployment.after (first.on settings firstId)) :=
    (first.concerns settings firstId).leaves other isOther deployment
  have leavesFirst (deployment : Deployment) {other : String} (isOther : secondId ≠ other) :
      deployment.AgreesOn other (deployment.after (second.on settings secondId)) :=
    (second.concerns settings secondId).leaves other isOther deployment
  refine ⟨(leavesSecond start different).showsSame, fun clear => ?_⟩
  obtain ⟨sameFirst, agreesFirst⟩ := respects_other different clear first second
  obtain ⟨sameSecond, agreesSecond⟩ := respects_other (Ne.symm different) clear second first
  refine ⟨sameFirst, sameSecond, .of_agreesOn fun tokenId => ?_⟩
  by_cases isFirst : firstId = tokenId
  · rw [← isFirst]
    exact (leavesFirst _ (Ne.symm different)).symm.trans agreesFirst
  · by_cases isSecond : secondId = tokenId
    · rw [← isSecond]
      exact agreesSecond.symm.trans (leavesSecond _ different)
    · have inFirstOrder := (leavesSecond start isFirst).trans (leavesFirst _ isSecond)
      have inSecondOrder := (leavesFirst start isSecond).trans (leavesSecond _ isFirst)
      exact inFirstOrder.symm.trans inSecondOrder

/-- Two collections with token identifiers of which one continues the other;
the statistics of one of them have just been computed. -/
def withLongerTokenId : Deployment :=
  (ServiceHistory.ofEvents .quarterHour (.empty 0 30 1048576 3600 none)
    [.register { tokenId := "ALPHA", collectionId := 1, name := "Alpha" },
      .register { tokenId := "ALPHA:", collectionId := 1, name := "Beta" },
      .addToken 1 { ownerId := 7, attributes := "" }, .getStatistics "ALPHA"]).current

theorem independent_withLongerTokenId :
    ((Operation.getStatistics .quarterHour "ALPHA:").runOn withLongerTokenId).1.isOk = true ∧
      withLongerTokenId.ShowsSame "ALPHA"
        (withLongerTokenId.after (Operation.getStatistics .quarterHour "ALPHA:")) ∧
      ((Operation.getStatistics .quarterHour "ALPHA:").runOn
          (withLongerTokenId.after (Operation.invalidate "ALPHA"))).1 =
        ((Operation.getStatistics .quarterHour "ALPHA:").runOn withLongerTokenId).1 ∧
      ((withLongerTokenId.after (Operation.getStatistics .quarterHour "ALPHA:")).after
        (Operation.invalidate "ALPHA")).LooksSame
          ((withLongerTokenId.after (Operation.invalidate "ALPHA")).after
            (Operation.getStatistics .quarterHour "ALPHA:")) := by
  have succeeded :
      ((Operation.getStatistics .quarterHour "ALPHA:").runOn withLongerTokenId).1.isOk = true := by
    decide +kernel
  have clear : withLongerTokenId.outages = [] := by
    decide +kernel
  obtain ⟨shows, commutes⟩ := independent_of_other (by decide : "ALPHA:" ≠ "ALPHA") .quarterHour
    .getStatistics .invalidate withLongerTokenId
  obtain ⟨sameStatistics, -, looksSame⟩ := commutes clear
  exact ⟨succeeded, shows, sameStatistics, looksSame⟩

end TokenOperation

end MarketStats
