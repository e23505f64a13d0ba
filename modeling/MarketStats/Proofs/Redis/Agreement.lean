import MarketStats.Proofs.Cache.Purging
import MarketStats.Proofs.Redis.SortedSet
import MarketStats.Proofs.Redis.Words

/-!
# A server in place of the shared tier

A server answers every request as the shared tier in memory does, as long as no
key is used for texts and for sorted sets.  Of the texts, both have the same
ones from any moment on: what is purged from memory, and when, makes no
difference.  Of the sorted sets, the server keeps in order what the shared tier
puts into order when it is asked.
-/

namespace MarketStats

namespace SharedRequest

/-- The keys that a request uses for texts. -/
def textKeys : SharedRequest → List String
  | .get key => [key]
  | .put key _ _ => [key]
  | .keep key _ => [key]
  | .remove key => [key]
  | .removeAll keys => keys
  | .claim key _ _ => [key]
  | .rank _ _ _ => []
  | .ranked _ _ _ _ => []

/-- The keys that a request uses for sorted sets. -/
def rankedKeys : SharedRequest → List String
  | .rank key _ _ => [key]
  | .ranked key _ _ _ => [key]
  | _ => []

/-- Lifetimes are positive whole numbers of milliseconds that fit sixty-four
bits, and scores are finite. -/
def IsSendable : SharedRequest → Prop
  | .put _ _ lifetime | .claim _ _ lifetime =>
      ∃ count, 0 < count ∧ count < UInt64.size ∧ lifetime = Clock.milliseconds count
  | .rank _ _ score => score.isFinite = true
  | _ => True

end SharedRequest

namespace RedisServer

/-- Answer a request by way of a server: what has become of it, and the server
afterwards. -/
def ask (server : RedisServer) (now : Nat) (request : SharedRequest) :
    Except StatsError request.Answer × RedisServer :=
  (request.askRedis fun command => .ok (server.execute now command.words).1,
    match request.redisCommand? with
    | none => server
    | some command => (server.execute now command.words).2)

/-- What becomes of some requests by way of a server. -/
def outcomes : RedisServer → List TimedRequest → List SharedOutcome
  | _, [] => []
  | server, { now, request } :: rest =>
      ⟨request, (server.ask now request).1.mapError Failure.error⟩ ::
        (server.ask now request).2.outcomes rest

end RedisServer

namespace RedisEntry

/-- A text with its expiry, as the server keeps it. -/
def ofCache (entry : CacheEntry) : RedisEntry :=
  { value := .text entry.value, expiresAt := entry.expiresAt }

theorem map_ofCache_filter (found : Option CacheEntry) (now : Nat) :
    (found.filter fun entry => entry.isLive now).map ofCache =
      (found.map ofCache).filter fun entry => entry.isPresent now := by
  cases found with
  | none => rfl
  | some entry =>
      change (if entry.isLive now then some entry else none).map ofCache =
        if entry.isLive now then some (ofCache entry) else none
      split
      · rfl
      · rfl

end RedisEntry

namespace RedisServer

variable {server : RedisServer} {now moment : Nat}

theorem find?_put (server : RedisServer) (moment : Nat) (key : String) (entry : RedisEntry)
    (other : String) :
    (server.put key entry).find? moment other =
      if key = other then (some entry).filter fun entry => entry.isPresent moment
      else server.find? moment other := by
  rw [find?, put]
  dsimp only
  split
  · rfl
  · rfl

theorem entries_removeAll (server : RedisServer) (now : Nat) (keys : List String)
    (other : String) :
    (server.removeAll now keys).2.entries other =
      if other ∈ keys then none else server.entries other := by
  induction keys generalizing server with
  | nil => rfl
  | cons key keys ih =>
      rw [removeAll]
      dsimp only
      rw [ih, remove]
      by_cases same : key = other
      · simp [same]
      · simp [same, Ne.symm same]

theorem find?_removeAll (server : RedisServer) (now moment : Nat) (keys : List String)
    (other : String) :
    (server.removeAll now keys).2.find? moment other =
      if other ∈ keys then none else server.find? moment other := by
  rw [find?, entries_removeAll]
  split
  · rfl
  · rfl

theorem error?_replyCount (count : Nat) : (replyCount count).error? = none := by
  have least := (Int64.ofNat count).le_toInt
  have most := (Int64.ofNat count).toInt_lt
  rw [replyCount, RedisReply.error?, RedisReply.isWord, if_pos]
  rw [decide_eq_true_eq]
  omega

theorem firstError?_map_bulk (texts : List String) :
    RedisReply.firstError? (texts.map RedisReply.bulk) = none := by
  induction texts with
  | nil => rfl
  | cons text texts ih => exact ih

theorem asTexts_map_bulk (texts : List String) :
    RedisReply.asTexts (.array (texts.map RedisReply.bulk)) = .ok texts := by
  rw [RedisReply.asTexts, List.mapM_map]
  exact List.mapM_pure.trans (congrArg Except.ok (List.map_id _))

end RedisServer

theorem RedisCommand.lifetimeMilliseconds_milliseconds {count : Nat} (positive : 0 < count)
    (fits : count < UInt64.size) : lifetimeMilliseconds (Clock.milliseconds count) = count := by
  rw [lifetimeMilliseconds, Clock.wholeMilliseconds_milliseconds, Nat.mod_eq_of_lt fits]
  exact Nat.max_eq_left positive

namespace SharedTier

variable {isRanked : String → Prop} {now moment : Nat} {tier : SharedTier} {server : RedisServer}

/-- A server has the texts that a tier in memory has from a moment on, and its
rankings as sorted sets. -/
structure Agrees (isRanked : String → Prop) (now : Nat) (tier : SharedTier)
    (server : RedisServer) : Prop where
  texts : ∀ key, ¬isRanked key → ∀ moment, now ≤ moment →
    server.find? moment key = (tier.entries.live? moment key).map RedisEntry.ofCache
  sets : ∀ key, isRanked key → ∃ members, RedisValue.Lists members (tier.rankings.ranking key) ∧
    (server.entries key = some ⟨.sortedSet members, none⟩ ∨
      server.entries key = none ∧ members = [])

namespace Agrees

theorem empty (isRanked : String → Prop) (now start sweepInterval : Nat) :
    Agrees isRanked now (.empty start sweepInterval) .empty where
  texts key _ moment _ := by
    rfl
  sets key _ := ⟨[], ⟨.nil, .nil⟩, .inr ⟨rfl, rfl⟩⟩

theorem later (agrees : Agrees isRanked now tier server) (notBefore : now ≤ moment) :
    Agrees isRanked moment tier server where
  texts key isText moment' notBefore' :=
    agrees.texts key isText moment' (Nat.le_trans notBefore notBefore')
  sets := agrees.sets

/-- Texts may change on both sides, where the sorted sets stay the same. -/
theorem of_texts (agrees : Agrees isRanked now tier server) {entries : ExpiringCache}
    {changed : RedisServer}
    (sameTexts : ∀ key, ¬isRanked key → ∀ moment, now ≤ moment →
      changed.find? moment key = (entries.live? moment key).map RedisEntry.ofCache)
    (sameSets : ∀ key, isRanked key → changed.entries key = server.entries key) :
    Agrees isRanked now { tier with entries } changed where
  texts := sameTexts
  sets key isSet := by
    rw [sameSets key isSet]
    exact agrees.sets key isSet

/-- Both put the same text. -/
theorem put (agrees : Agrees isRanked now tier server) {key : String} (isText : ¬isRanked key)
    (value : String) (expiresAt : Option Nat) :
    Agrees isRanked now { tier with entries := tier.entries.put now key value expiresAt }
      (server.put key ⟨.text value, expiresAt⟩) := by
  refine agrees.of_texts (fun other otherIsText moment notBefore => ?_) fun other isSet => ?_
  · rw [ExpiringCache.live?_put notBefore, RedisServer.find?_put,
      agrees.texts other otherIsText moment notBefore]
    split
    · exact (RedisEntry.map_ofCache_filter (some ⟨value, _⟩) moment).symm
    · rfl
  · refine if_neg ?_
    rintro rfl
    exact isText isSet

/-- Both remove the same keys. -/
theorem removeAll (agrees : Agrees isRanked now tier server) {keys : List String}
    (areTexts : ∀ key ∈ keys, ¬isRanked key) :
    Agrees isRanked now { tier with entries := tier.entries.removeAll keys }
      (server.removeAll now keys).2 := by
  refine agrees.of_texts (fun other otherIsText moment notBefore => ?_) fun other isSet => ?_
  · rw [ExpiringCache.live?_removeAll, RedisServer.find?_removeAll,
      agrees.texts other otherIsText moment notBefore]
    split
    · rfl
    · rfl
  · rw [RedisServer.entries_removeAll, if_neg fun removed => areTexts other removed isSet]

/-- A purge is not noticed. -/
theorem sweepIfDue (agrees : Agrees isRanked now tier server) :
    Agrees isRanked now { tier with entries := tier.entries.sweepIfDue now } server := by
  refine agrees.of_texts (fun key isText moment notBefore => ?_) fun key isSet => rfl
  rw [ExpiringCache.live?_sweepIfDue notBefore, agrees.texts key isText moment notBefore]

theorem find?_now (agrees : Agrees isRanked now tier server) {key : String}
    (isText : ¬isRanked key) :
    server.find? now key = (tier.entries.live? now key).map RedisEntry.ofCache :=
  agrees.texts key isText now (Nat.le_refl now)

/-- The server has a ranking as a sorted set, or it has nothing and the ranking
is empty. -/
theorem find?_ranked (agrees : Agrees isRanked now tier server) {key : String}
    (isSet : isRanked key) :
    ∃ members, RedisValue.Lists members (tier.rankings.ranking key) ∧
      (server.find? now key = some ⟨.sortedSet members, none⟩ ∨
        server.find? now key = none ∧ members = []) := by
  obtain ⟨members, lists, found | ⟨nothing, isEmpty⟩⟩ := agrees.sets key isSet
  · refine ⟨members, lists, .inl ?_⟩
    rw [RedisServer.find?, found]
    rfl
  · refine ⟨members, lists, .inr ⟨?_, isEmpty⟩⟩
    rw [RedisServer.find?, nothing]
    rfl

theorem rank (agrees : Agrees isRanked now tier server) {key : String} (isSet : isRanked key)
    (member : String) (score : Double) :
    ∃ count changed, server.perform now (.addScore key score member) =
        (RedisServer.replyCount count, changed) ∧
      Agrees isRanked now { tier with rankings := tier.rankings.add key member score } changed := by
  have behind : ∀ members,
      RedisValue.Lists members ((tier.rankings.ranking key).insert member score) →
      Agrees isRanked now { tier with rankings := tier.rankings.add key member score }
        (server.put key ⟨.sortedSet members, none⟩) := by
    intro members lists
    refine { texts := fun other isText moment notBefore => ?_, sets := fun other otherIsSet => ?_ }
    · rw [RedisServer.find?_put, if_neg, agrees.texts other isText moment notBefore]
      rintro rfl
      exact isText isSet
    · dsimp only
      rw [Rankings.ranking_add, RedisServer.put]
      dsimp only
      split
      · exact ⟨members, lists, .inl rfl⟩
      · exact agrees.sets other otherIsSet
  obtain ⟨members, lists, found | ⟨nothing, rfl⟩⟩ := agrees.find?_ranked isSet
  · refine ⟨if members.any fun entry => entry.1 = member then 0 else 1, _, ?_,
      behind _ (lists.addMember member score)⟩
    rw [RedisServer.perform, found]
  · refine ⟨1, _, ?_, behind _ (lists.addMember member score)⟩
    rw [RedisServer.perform, nothing]
    rfl

theorem replyRange (agrees : Agrees isRanked now tier server) {key : String}
    (isSet : isRanked key) {select : List String → List String} (ofNothing : select [] = []) :
    server.replyRange now key select =
      .array ((select (tier.rankings.ranking key).ascending).map RedisReply.bulk) := by
  obtain ⟨members, lists, found | ⟨nothing, rfl⟩⟩ := agrees.find?_ranked isSet
  · rw [RedisServer.replyRange, found, ← lists.map_fst]
  · rw [RedisServer.replyRange, nothing, ← lists.map_fst, List.map_nil, ofNothing, List.map_nil]

end Agrees

/-- A request at a moment is answered alike, and the server still agrees with the
tier behind it. -/
def AnswersAlike (isRanked : String → Prop) (now : Nat) (tier : SharedTier)
    (server : RedisServer) (request : SharedRequest) : Prop :=
  (server.ask now request).1.mapError Failure.error = (tier.perform now request).1 ∧
    Agrees isRanked now (tier.perform now request).2 (server.ask now request).2

/-- A reply from which an answer can be read is the answer by way of a server. -/
theorem AnswersAlike.of_perform {request : SharedRequest} {command : RedisCommand}
    {reply : RedisReply} {changed : RedisServer} {answer : request.Answer}
    (sent : request.redisCommand? = some command) (sendable : command.IsSendable)
    (performed : server.perform now command = (reply, changed)) (noError : reply.error? = none)
    (read : request.readReply reply = .ok answer)
    (answered : (tier.perform now request).1 = .ok answer)
    (agrees : Agrees isRanked now (tier.perform now request).2 changed) :
    AnswersAlike isRanked now tier server request := by
  have executed : server.execute now command.words = (reply, changed) := by
    rw [RedisServer.execute, RedisCommand.ofWords?_words sendable]
    exact performed
  rw [AnswersAlike, RedisServer.ask, SharedRequest.askRedis, sent]
  dsimp only [Except.bind]
  rw [executed]
  dsimp only
  rw [noError, read, answered]
  exact ⟨rfl, agrees⟩

namespace Agrees

variable {key value : String} {lifetime : Nat}

theorem answersAlike_get (agrees : Agrees isRanked now tier server) (isText : ¬isRanked key) :
    AnswersAlike isRanked now tier server (.get key) := by
  have found := agrees.find?_now isText
  cases live : tier.entries.live? now key with
  | none =>
      have performed : server.perform now (.get key) = (.nil, server) := by
        rw [RedisServer.perform, found, live]
        rfl
      refine .of_perform rfl trivial performed rfl rfl ?_ agrees
      rw [perform, ExpiringCache.get?, live]
      rfl
  | some entry =>
      have performed : server.perform now (.get key) = (.bulk entry.value, server) := by
        rw [RedisServer.perform, found, live]
        rfl
      refine .of_perform rfl trivial performed rfl rfl ?_ agrees
      rw [perform, ExpiringCache.get?, live]
      rfl

theorem answersAlike_put (agrees : Agrees isRanked now tier server) (isText : ¬isRanked key)
    (value : String) {count expiry : Nat} (positive : 0 < count) (fits : count < UInt64.size)
    (inTime : Clock.after? now (Clock.milliseconds count) = some expiry) :
    AnswersAlike isRanked now tier server (.put key value (Clock.milliseconds count)) := by
  have sent : (SharedRequest.put key value (Clock.milliseconds count)).redisCommand? =
      some (.setFor key count value) := by
    rw [SharedRequest.redisCommand?, RedisCommand.lifetimeMilliseconds_milliseconds positive fits]
  have performed : server.perform now (.setFor key count value) = (.status "OK", _) :=
    if_neg (Nat.ne_of_gt positive)
  have told : tier.entries.putFor now key value (Clock.milliseconds count) = _ :=
    ExpiringCache.putFor_of_inTime inTime key value
  obtain ⟨-, rfl⟩ := Clock.after?_eq_some_iff.mp inTime
  refine .of_perform sent trivial performed rfl rfl ?_ ?_
  · rw [perform, told]
  · rw [perform, told]
    exact agrees.put isText value (some _)

theorem answersAlike_keep (agrees : Agrees isRanked now tier server) (isText : ¬isRanked key)
    (value : String) : AnswersAlike isRanked now tier server (.keep key value) := by
  have performed : server.perform now (.set key value) = (.status "OK", _) := rfl
  exact .of_perform rfl trivial performed rfl rfl rfl (agrees.put isText value none)

theorem answersAlike_removeAll (agrees : Agrees isRanked now tier server) {keys : List String}
    (areTexts : ∀ key ∈ keys, ¬isRanked key) :
    AnswersAlike isRanked now tier server (.removeAll keys) := by
  cases keys with
  | nil => exact ⟨rfl, agrees⟩
  | cons key keys =>
      have performed : server.perform now (.remove (key :: keys)) =
          (RedisServer.replyCount _, _) := rfl
      exact .of_perform rfl (List.cons_ne_nil key keys) performed (RedisServer.error?_replyCount _)
        rfl rfl (agrees.removeAll areTexts)

theorem answersAlike_remove (agrees : Agrees isRanked now tier server) (isText : ¬isRanked key) :
    AnswersAlike isRanked now tier server (.remove key) :=
  answersAlike_removeAll agrees fun _ member => List.mem_singleton.mp member ▸ isText

theorem answersAlike_claim (agrees : Agrees isRanked now tier server) (isText : ¬isRanked key)
    (value : String) {count expiry : Nat} (positive : 0 < count) (fits : count < UInt64.size)
    (inTime : Clock.after? now (Clock.milliseconds count) = some expiry) :
    AnswersAlike isRanked now tier server (.claim key value (Clock.milliseconds count)) := by
  have found := agrees.find?_now isText
  have sent : (SharedRequest.claim key value (Clock.milliseconds count)).redisCommand? =
      some (.setIfAbsent key value count) := by
    rw [SharedRequest.redisCommand?, RedisCommand.lifetimeMilliseconds_milliseconds positive fits]
  cases live : tier.entries.live? now key with
  | none =>
      have performed : server.perform now (.setIfAbsent key value count) = (.status "OK",
          server.put key ⟨.text value, some (now + Clock.milliseconds count)⟩) := by
        rw [RedisServer.perform, if_neg (Nat.ne_of_gt positive), found, live]
        rfl
      have claimed := ExpiringCache.claim_eq_put live inTime value
      obtain ⟨-, rfl⟩ := Clock.after?_eq_some_iff.mp inTime
      refine .of_perform sent trivial performed rfl rfl ?_ ?_
      · rw [perform, claimed]
        rfl
      · rw [perform, claimed]
        exact agrees.put isText value (some _)
  | some entry =>
      have performed : server.perform now (.setIfAbsent key value count) = (.nil, server) := by
        rw [RedisServer.perform, if_neg (Nat.ne_of_gt positive), found, live]
        rfl
      have claimed := ExpiringCache.claim_of_isSome (Option.isSome_of_eq_some live) value
        (Clock.milliseconds count)
      refine .of_perform sent trivial performed rfl rfl ?_ ?_
      · rw [perform, claimed]
        rfl
      · rw [perform, claimed]
        exact agrees.sweepIfDue

theorem answersAlike_rank (agrees : Agrees isRanked now tier server) (isSet : isRanked key)
    (member : String) {score : Double} (finite : score.isFinite = true) :
    AnswersAlike isRanked now tier server (.rank key member score) := by
  obtain ⟨count, changed, performed, agreesThen⟩ := agrees.rank isSet member score
  exact .of_perform rfl finite performed (RedisServer.error?_replyCount count) rfl rfl agreesThen

theorem answersAlike_ranked (agrees : Agrees isRanked now tier server) (isSet : isRanked key)
    (first last : Int) (descending : Bool) :
    AnswersAlike isRanked now tier server (.ranked key first last descending) := by
  cases descending with
  | false =>
      have replied : server.replyRange now key
          (fun members => RedisValue.membersBetween members first last) = .array _ :=
        agrees.replyRange isSet rfl
      have performed : server.perform now (.range key first last) = (.array _, server) :=
        Prod.ext replied rfl
      refine .of_perform rfl trivial performed (RedisServer.firstError?_map_bulk _)
        (RedisServer.asTexts_map_bulk _) ?_ agrees
      rw [RedisValue.membersBetween_eq_selectRanks]
      rfl
  | true =>
      have replied : server.replyRange now key
          (fun members => RedisValue.membersBetween members.reverse first last) = .array _ :=
        agrees.replyRange isSet rfl
      have performed : server.perform now (.reverseRange key first last) = (.array _, server) :=
        Prod.ext replied rfl
      refine .of_perform rfl trivial performed (RedisServer.firstError?_map_bulk _)
        (RedisServer.asTexts_map_bulk _) ?_ agrees
      rw [RedisValue.membersBetween_eq_selectRanks]
      rfl

/-- Where no key is used in both ways and the clock can tell all expiries, every
request is answered alike. -/
theorem answersAlike (agrees : Agrees isRanked now tier server) {request : SharedRequest}
    (sendable : request.IsSendable) (inTime : TimedRequest.IsInTime ⟨now, request⟩)
    (areTexts : ∀ key ∈ request.textKeys, ¬isRanked key)
    (areRanked : ∀ key ∈ request.rankedKeys, isRanked key) :
    AnswersAlike isRanked now tier server request := by
  cases request with
  | get key => exact agrees.answersAlike_get (areTexts key List.mem_cons_self)
  | put key value lifetime =>
      obtain ⟨count, positive, fits, rfl⟩ := sendable
      obtain ⟨expiry, told⟩ := Option.isSome_iff_exists.mp (inTime _ rfl)
      exact agrees.answersAlike_put (areTexts key List.mem_cons_self) value positive fits told
  | keep key value => exact agrees.answersAlike_keep (areTexts key List.mem_cons_self) value
  | remove key => exact agrees.answersAlike_remove (areTexts key List.mem_cons_self)
  | removeAll keys => exact agrees.answersAlike_removeAll areTexts
  | claim key value lifetime =>
      obtain ⟨count, positive, fits, rfl⟩ := sendable
      obtain ⟨expiry, told⟩ := Option.isSome_iff_exists.mp (inTime _ rfl)
      exact agrees.answersAlike_claim (areTexts key List.mem_cons_self) value positive fits told
  | rank key member score =>
      exact agrees.answersAlike_rank (areRanked key List.mem_cons_self) member sendable
  | ranked key first last descending =>
      exact agrees.answersAlike_ranked (areRanked key List.mem_cons_self) first last descending

theorem outcomes_eq (agrees : Agrees isRanked now tier server) {requests : List TimedRequest}
    (ordered : (requests.map TimedRequest.now).Pairwise (· ≤ ·))
    (notBefore : ∀ timed ∈ requests, now ≤ timed.now)
    (sendable : ∀ timed ∈ requests, timed.request.IsSendable)
    (inTime : ∀ timed ∈ requests, timed.IsInTime)
    (areTexts : ∀ timed ∈ requests, ∀ key ∈ timed.request.textKeys, ¬isRanked key)
    (areRanked : ∀ timed ∈ requests, ∀ key ∈ timed.request.rankedKeys, isRanked key) :
    server.outcomes requests = tier.outcomes requests := by
  induction requests generalizing now tier server with
  | nil => rfl
  | cons timed rest ih =>
      obtain ⟨firstNow, restOrdered⟩ := List.pairwise_cons.mp ordered
      obtain ⟨firstNotBefore, -⟩ := List.forall_mem_cons.mp notBefore
      obtain ⟨firstSendable, restSendable⟩ := List.forall_mem_cons.mp sendable
      obtain ⟨firstInTime, restInTime⟩ := List.forall_mem_cons.mp inTime
      obtain ⟨firstTexts, restTexts⟩ := List.forall_mem_cons.mp areTexts
      obtain ⟨firstRanked, restRanked⟩ := List.forall_mem_cons.mp areRanked
      obtain ⟨alike, agreesThen⟩ :=
        (agrees.later firstNotBefore).answersAlike firstSendable firstInTime firstTexts firstRanked
      have restNotBefore : ∀ later ∈ rest, timed.now ≤ later.now :=
        fun later member => firstNow _ (List.mem_map_of_mem member)
      rw [RedisServer.outcomes, SharedTier.outcomes, alike,
        ih agreesThen restOrdered restNotBefore restSendable restInTime restTexts restRanked]

end Agrees

end SharedTier

/-- Lifetimes that can be sent end in time, as long as the longest of them
does. -/
theorem TimedRequest.isInTime_of_isSendable {timed : TimedRequest}
    (early : timed.now + Clock.milliseconds UInt64.size ≤ Clock.endOfTime)
    (sendable : timed.request.IsSendable) : timed.IsInTime := by
  obtain ⟨now, request⟩ := timed
  have ends {count : Nat} (fits : count < UInt64.size) :
      (Clock.after? now (Clock.milliseconds count)).isSome = true := by
    simp only [Clock.milliseconds] at early ⊢
    exact Clock.isSome_after?_iff.mpr (by omega)
  rintro lifetime asked
  cases request with
  | put key value lifetime =>
      obtain ⟨count, -, fits, rfl⟩ := sendable
      cases asked
      exact ends fits
  | claim key value lifetime =>
      obtain ⟨count, -, fits, rfl⟩ := sendable
      cases asked
      exact ends fits
  | _ => cases asked

/-- A Redis server answers requests as the tier in memory does, whenever this
tier was started and however often it is purged: the clock never runs back and
can tell when lifetimes end, lifetimes are whole milliseconds, scores are
finite, and no key is used for a text and for a sorted set. -/
theorem RedisServer.outcomes_eq_outcomes_inMemory (start sweepInterval : Nat)
    {requests : List TimedRequest} (ordered : (requests.map TimedRequest.now).Pairwise (· ≤ ·))
    (sendable : ∀ timed ∈ requests, timed.request.IsSendable)
    (inTime : ∀ timed ∈ requests, timed.IsInTime)
    (apart : ∀ first ∈ requests, ∀ second ∈ requests, ∀ key ∈ first.request.textKeys,
      key ∉ second.request.rankedKeys) :
    RedisServer.empty.outcomes requests =
      (SharedTier.empty start sweepInterval).outcomes requests := by
  let isRanked : String → Prop := fun key => ∃ timed ∈ requests, key ∈ timed.request.rankedKeys
  have agrees : SharedTier.Agrees isRanked 0 (.empty start sweepInterval) .empty :=
    .empty isRanked 0 start sweepInterval
  refine agrees.outcomes_eq ordered (fun timed _ => Nat.zero_le _) sendable inTime ?_ ?_
  · rintro timed listed key isText ⟨other, otherListed, isRanked⟩
    exact apart timed listed other otherListed key isText isRanked
  · exact fun timed listed key isRanked => ⟨timed, listed, isRanked⟩

/-- A lease that is claimed again while it is held and when it has run out, and
two members of equal rank. -/
def contendedLease : List TimedRequest :=
  [⟨0, .claim "lease" "first" (Clock.milliseconds 1)⟩,
    ⟨0, .claim "lease" "second" (Clock.milliseconds 1)⟩,
    ⟨1000000, .claim "lease" "second" (Clock.milliseconds 1)⟩,
    ⟨1000000, .rank "board" "b" .zero⟩,
    ⟨1000000, .rank "board" "a" .zero⟩,
    ⟨1500000, .removeAll []⟩,
    ⟨1500000, .get "lease"⟩,
    ⟨1500000, .ranked "board" 0 (-1) true⟩]

theorem RedisServer.outcomes_eq_outcomes_inMemory_contendedLease :
    RedisServer.empty.outcomes contendedLease =
      (SharedTier.empty 0 0).outcomes contendedLease := by
  have sendable : ∀ timed ∈ contendedLease, timed.request.IsSendable := by
    have whole : ∃ count, 0 < count ∧ count < UInt64.size ∧
        Clock.milliseconds 1 = Clock.milliseconds count :=
      ⟨1, by decide, by decide, rfl⟩
    have finite : Double.zero.isFinite = true := by decide
    simp only [contendedLease, List.forall_mem_cons, List.not_mem_nil, false_imp_iff,
      implies_true, and_true]
    exact ⟨whole, whole, whole, finite, finite, trivial, trivial, trivial⟩
  have early : ∀ timed ∈ contendedLease,
      timed.now + Clock.milliseconds UInt64.size ≤ Clock.endOfTime := by
    decide
  have inTime : ∀ timed ∈ contendedLease, timed.IsInTime := fun timed listed =>
    TimedRequest.isInTime_of_isSendable (early timed listed) (sendable timed listed)
  exact RedisServer.outcomes_eq_outcomes_inMemory 0 0 (by decide) sendable inTime (by decide)

end MarketStats
