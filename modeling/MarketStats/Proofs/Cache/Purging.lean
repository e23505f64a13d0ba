import Mathlib.Data.List.Forall2
import Mathlib.Logic.Function.Basic
import MarketStats.Cache.Shared
import MarketStats.Proofs.Cache.Expiring

/-!
# Purges are not noticed

The shared tier in memory keeps expired entries until some later write purges
them.  It answers as a plain map does that keeps every entry until it is
replaced or removed, and in which an entry is present as long as the moment of
its expiry, if there is one, lies ahead.  When purges happen, and how often,
therefore makes no difference to any answer.  It makes none either where a
request breaks off because it is to put an entry whose expiry the clock cannot
tell.
-/

namespace MarketStats

/-- A request at a reading of the clock. -/
structure TimedRequest where
  now : Nat
  request : SharedRequest

/-- How long what a request puts is to last. -/
def SharedRequest.lifetime? : SharedRequest → Option Nat
  | .put _ _ lifetime => some lifetime
  | .claim _ _ lifetime => some lifetime
  | _ => none

/-- The clock can tell when what a request puts expires. -/
def TimedRequest.IsInTime (timed : TimedRequest) : Prop :=
  ∀ lifetime ∈ timed.request.lifetime?, (Clock.after? timed.now lifetime).isSome = true

/-- A request with what has become of it. -/
abbrev SharedOutcome :=
  Σ request : SharedRequest, Except Failure request.Answer

/-- What becomes of some requests to the shared tier in memory. -/
def SharedTier.outcomes : SharedTier → List TimedRequest → List SharedOutcome
  | _, [] => []
  | tier, { now, request } :: rest =>
      ⟨request, (tier.perform now request).1⟩ :: (tier.perform now request).2.outcomes rest

/-- Values under keys, each with the moment of its expiry, if it has one. -/
abbrev PlainMap := String → Option (String × Option Nat)

/-- The value under a key, as long as it has no expiry or one that lies ahead. -/
def PlainMap.value? (map : PlainMap) (now : Nat) (key : String) : Option String :=
  match map key with
  | none => none
  | some (value, none) => some value
  | some (value, some expiry) => if now < expiry then some value else none

theorem PlainMap.value?_update (map : PlainMap) (now : Nat) (key : String)
    (entry : Option (String × Option Nat)) (other : String) :
    PlainMap.value? (Function.update map key entry) now other =
      if key = other then PlainMap.value? (fun _ => entry) now key else map.value? now other := by
  unfold PlainMap.value?
  by_cases same : key = other
  · subst same
    simp
  · simp [same, Function.update_of_ne (Ne.symm same)]

/-- The shared tier with a plain map in place of entries that are purged. -/
structure PlainTier where
  map : PlainMap
  rankings : Rankings

namespace PlainTier

def empty : PlainTier :=
  { map := fun _ => none, rankings := .empty }

def write (tier : PlainTier) (key : String) (entry : Option (String × Option Nat)) : PlainTier :=
  { tier with map := Function.update tier.map key entry }

def perform (tier : PlainTier) (now : Nat) :
    (request : SharedRequest) → Except Failure request.Answer × PlainTier
  | .get key => (.ok (tier.map.value? now key), tier)
  | .put key value lifetime =>
      match Clock.after? now lifetime with
      | some expiry => (.ok (), tier.write key (some (value, some expiry)))
      | none => (.error .clockOverflow, tier)
  | .keep key value => (.ok (), tier.write key (some (value, none)))
  | .remove key => (.ok (), tier.write key none)
  | .removeAll keys =>
      (.ok (), { tier with map := fun key => if key ∈ keys then none else tier.map key })
  | .claim key value lifetime =>
      if (tier.map.value? now key).isSome then
        (.ok false, tier)
      else
        match Clock.after? now lifetime with
        | some expiry => (.ok true, tier.write key (some (value, some expiry)))
        | none => (.error .clockOverflow, tier)
  | .rank key member score =>
      (.ok (), { tier with rankings := tier.rankings.add key member score })
  | .ranked key first last descending =>
      (.ok (tier.rankings.range key first last descending), tier)

def outcomes : PlainTier → List TimedRequest → List SharedOutcome
  | _, [] => []
  | tier, { now, request } :: rest =>
      ⟨request, (tier.perform now request).1⟩ :: (tier.perform now request).2.outcomes rest

end PlainTier

namespace SharedTier

/-- From a moment on, a plain map has the values that are present in a tier, and
the rankings are the same. -/
structure ReadsAs (now : Nat) (tier : SharedTier) (plain : PlainTier) : Prop where
  value?_eq : ∀ moment, now ≤ moment → ∀ key,
    tier.entries.get? moment key = plain.map.value? moment key
  rankings_eq : tier.rankings = plain.rankings

namespace ReadsAs

variable {now moment : Nat} {tier : SharedTier} {plain : PlainTier}

theorem empty (now start sweepInterval : Nat) :
    ReadsAs now (.empty start sweepInterval) .empty where
  value?_eq _ _ _ := rfl
  rankings_eq := rfl

theorem later (readsAs : ReadsAs now tier plain) (notBefore : now ≤ moment) :
    ReadsAs moment tier plain where
  value?_eq following after := readsAs.value?_eq following (Nat.le_trans notBefore after)
  rankings_eq := readsAs.rankings_eq

/-- What is present later under one key has changed on both sides alike. -/
theorem write (readsAs : ReadsAs now tier plain) {entries : ExpiringCache} {key : String}
    {entry : Option (String × Option Nat)}
    (written : ∀ moment, now ≤ moment → ∀ other, entries.get? moment other =
      if key = other then PlainMap.value? (fun _ => entry) moment key
      else tier.entries.get? moment other) :
    ReadsAs now { tier with entries } (plain.write key entry) where
  value?_eq moment notBefore other := by
    rw [written moment notBefore, PlainTier.write, PlainMap.value?_update,
      readsAs.value?_eq moment notBefore]
  rankings_eq := readsAs.rankings_eq

theorem put (readsAs : ReadsAs now tier plain) (key value : String) (expiresAt : Option Nat) :
    ReadsAs now { tier with entries := tier.entries.put now key value expiresAt }
      (plain.write key (some (value, expiresAt))) := by
  apply readsAs.write
  intro moment notBefore other
  rw [ExpiringCache.get?, ExpiringCache.live?_put notBefore]
  split
  · cases expiresAt with
    | none => rfl
    | some expiry =>
        simp only [Option.filter_some, CacheEntry.isLive, PlainMap.value?,
          decide_eq_true_eq]
        split <;> rfl
  · rfl

theorem remove (readsAs : ReadsAs now tier plain) (key : String) :
    ReadsAs now { tier with entries := tier.entries.remove key } (plain.write key none) := by
  apply readsAs.write
  intro moment _ other
  rw [ExpiringCache.get?, ExpiringCache.live?_remove]
  split <;> rfl

theorem removeAll (readsAs : ReadsAs now tier plain) (keys : List String) :
    ReadsAs now { tier with entries := tier.entries.removeAll keys }
      { plain with map := fun key => if key ∈ keys then none else plain.map key } where
  value?_eq moment notBefore key := by
    have same := readsAs.value?_eq moment notBefore key
    rw [ExpiringCache.get?, ExpiringCache.live?_removeAll, PlainMap.value?]
    by_cases removed : key ∈ keys
    · simp [removed]
    · simp only [removed, if_false]
      exact same
  rankings_eq := readsAs.rankings_eq

/-- A purge is not noticed. -/
theorem sweepIfDue (readsAs : ReadsAs now tier plain) :
    ReadsAs now { tier with entries := tier.entries.sweepIfDue now } plain where
  value?_eq moment notBefore key := by
    rw [ExpiringCache.get?, ExpiringCache.live?_sweepIfDue notBefore]
    exact readsAs.value?_eq moment notBefore key
  rankings_eq := readsAs.rankings_eq

theorem isSome_live? (readsAs : ReadsAs now tier plain) (key : String) :
    (tier.entries.live? now key).isSome = (plain.map.value? now key).isSome := by
  rw [← readsAs.value?_eq now (Nat.le_refl now), ExpiringCache.get?, Option.isSome_map]

/-- A request is answered alike or breaks off alike, and what is present later is
the same. -/
theorem perform (readsAs : ReadsAs now tier plain) (request : SharedRequest) :
    (tier.perform now request).1 = (plain.perform now request).1 ∧
      ReadsAs now (tier.perform now request).2 (plain.perform now request).2 := by
  cases request with
  | get key =>
      exact ⟨congrArg Except.ok (readsAs.value?_eq now (Nat.le_refl now) key), readsAs⟩
  | put key value lifetime =>
      rw [SharedTier.perform, PlainTier.perform]
      cases told : Clock.after? now lifetime with
      | none =>
          rw [ExpiringCache.putFor_of_overflow told]
          exact ⟨rfl, readsAs⟩
      | some expiry =>
          rw [ExpiringCache.putFor_of_inTime told]
          exact ⟨rfl, readsAs.put key value (some expiry)⟩
  | keep key value => exact ⟨rfl, readsAs.put key value none⟩
  | remove key => exact ⟨rfl, readsAs.remove key⟩
  | removeAll keys => exact ⟨rfl, readsAs.removeAll keys⟩
  | claim key value lifetime =>
      have sameKeys := readsAs.isSome_live? key
      rw [SharedTier.perform, PlainTier.perform, ← sameKeys]
      rcases tier.entries.claim_cases now key value lifetime with
        ⟨present, claimed⟩ | ⟨absent, tooLong, claimed⟩ | ⟨expiry, absent, inTime, claimed⟩
      · rw [claimed, if_pos present]
        exact ⟨rfl, readsAs.sweepIfDue⟩
      · rw [claimed, absent, tooLong]
        exact ⟨rfl, readsAs.sweepIfDue⟩
      · rw [claimed, absent, inTime]
        exact ⟨rfl, readsAs.put key value (some expiry)⟩
  | rank key member score =>
      refine ⟨rfl, readsAs.value?_eq, ?_⟩
      simp only [SharedTier.perform, PlainTier.perform, readsAs.rankings_eq]
  | ranked key first last descending =>
      refine ⟨?_, readsAs⟩
      simp only [SharedTier.perform, PlainTier.perform, readsAs.rankings_eq]

/-- Requests have alike outcomes one after the other, as the clock goes on. -/
theorem outcomes_eq (readsAs : ReadsAs now tier plain) {requests : List TimedRequest}
    (ordered : (requests.map TimedRequest.now).Pairwise (· ≤ ·))
    (notBefore : ∀ timed ∈ requests, now ≤ timed.now) :
    tier.outcomes requests = plain.outcomes requests := by
  induction requests generalizing now tier plain with
  | nil => rfl
  | cons timed rest induction =>
      simp only [List.map_cons, List.pairwise_cons, List.forall_mem_map] at ordered
      simp only [List.forall_mem_cons] at notBefore
      obtain ⟨sameAnswer, readsAsThen⟩ := (readsAs.later notBefore.1).perform timed.request
      rw [SharedTier.outcomes, PlainTier.outcomes, sameAnswer,
        induction readsAsThen ordered.2 ordered.1]

end ReadsAs

end SharedTier

end MarketStats
