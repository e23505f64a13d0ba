import MarketStats.Cache.Expiring

/-!
# What is present in a cache whose entries expire

An entry that has expired stays expired, so a purge takes away only what will
not be present any more.  What is present from a moment on is therefore known
from the writes alone.
-/

namespace MarketStats

theorem CacheEntry.isLive_anti {entry : CacheEntry} {now moment : Nat} (later : now ≤ moment)
    (live : entry.isLive moment = true) : entry.isLive now = true := by
  unfold isLive at *
  split at live
  · rfl
  · simp only [decide_eq_true_eq] at *
    omega

namespace ExpiringCache

variable {cache : ExpiringCache} {now moment : Nat}

theorem live?_eq_some_iff {key : String} {entry : CacheEntry} :
    cache.live? now key = some entry ↔
      cache.entries[key]? = some entry ∧ entry.isLive now = true :=
  Option.filter_eq_some_iff

/-- An entry is present as long as it lasts. -/
theorem live?_of_isLive {key : String} {entry : CacheEntry}
    (present : cache.live? now key = some entry) (lasts : entry.isLive moment = true) :
    cache.live? moment key = some entry :=
  live?_eq_some_iff.mpr ⟨(live?_eq_some_iff.mp present).1, lasts⟩

/-- A purge is not noticed. -/
theorem live?_sweepIfDue (later : now ≤ moment) (key : String) :
    (cache.sweepIfDue now).live? moment key = cache.live? moment key := by
  unfold sweepIfDue
  split
  · rfl
  · unfold live?
    rw [Std.TreeMap.getElem?_filter', Option.filter_filter]
    congr 1
    funext entry
    by_cases live : entry.isLive moment = true
    · rw [live, CacheEntry.isLive_anti later live]
      rfl
    · rw [Bool.eq_false_iff.mpr live, Bool.and_false]

theorem live?_put (later : now ≤ moment) (key value : String) (expiresAt : Option Nat)
    (other : String) :
    (cache.put now key value expiresAt).live? moment other =
      if key = other then (some ⟨value, expiresAt⟩).filter fun entry => entry.isLive moment
      else cache.live? moment other := by
  unfold put live?
  simp only [Std.TreeMap.getElem?_insert, Std.LawfulEqCmp.compare_eq_iff_eq]
  split
  · rfl
  · exact live?_sweepIfDue later other

theorem get?_put_forever (later : now ≤ moment) (key value other : String) :
    (cache.put now key value none).get? moment other =
      if key = other then some value else cache.get? moment other := by
  unfold get?
  rw [live?_put later]
  split
  · rfl
  · rfl

theorem putFor_of_inTime {lifetime expiry : Nat} (inTime : Clock.after? now lifetime = some expiry)
    (key value : String) :
    cache.putFor now key value lifetime = (.ok (), cache.put now key value (some expiry)) := by
  rw [putFor, inTime]

/-- Without an expiry that the clock can tell nothing is put. -/
theorem putFor_of_overflow {lifetime : Nat} (tooLong : Clock.after? now lifetime = none)
    (key value : String) :
    cache.putFor now key value lifetime = (.error .clockOverflow, cache) := by
  rw [putFor, tooLong]

/-- A claim fails while there is an entry, and then it only purges. -/
theorem claim_of_isSome {key : String} (present : (cache.live? now key).isSome = true)
    (value : String) (lifetime : Nat) :
    cache.claim now key value lifetime = (.ok false, cache.sweepIfDue now) := by
  rw [claim, live?_sweepIfDue (Nat.le_refl now), if_pos present]

/-- A claim succeeds while there is no entry, and then it puts one. -/
theorem claim_eq_put {key : String} (absent : cache.live? now key = none) {lifetime expiry : Nat}
    (inTime : Clock.after? now lifetime = some expiry) (value : String) :
    cache.claim now key value lifetime = (.ok true, cache.put now key value (some expiry)) := by
  rw [claim, live?_sweepIfDue (Nat.le_refl now), absent, inTime]
  rfl

/-- A claim breaks off if it is to put an entry whose expiry the clock cannot
tell, and then it only purges. -/
theorem claim_of_overflow {key : String} (absent : cache.live? now key = none) {lifetime : Nat}
    (tooLong : Clock.after? now lifetime = none) (value : String) :
    cache.claim now key value lifetime = (.error .clockOverflow, cache.sweepIfDue now) := by
  rw [claim, live?_sweepIfDue (Nat.le_refl now), absent, tooLong]
  rfl

/-- All that a claim can do. -/
theorem claim_cases (cache : ExpiringCache) (now : Nat) (key value : String) (lifetime : Nat) :
    ((cache.live? now key).isSome = true ∧
        cache.claim now key value lifetime = (.ok false, cache.sweepIfDue now)) ∨
      (cache.live? now key = none ∧ Clock.after? now lifetime = none ∧
        cache.claim now key value lifetime = (.error .clockOverflow, cache.sweepIfDue now)) ∨
      ∃ expiry, cache.live? now key = none ∧ Clock.after? now lifetime = some expiry ∧
        cache.claim now key value lifetime =
          (.ok true, cache.put now key value (some expiry)) := by
  cases live : cache.live? now key with
  | some entry =>
      exact .inl ⟨rfl, claim_of_isSome (Option.isSome_of_eq_some live) value lifetime⟩
  | none =>
      cases told : Clock.after? now lifetime with
      | none => exact .inr (.inl ⟨rfl, rfl, claim_of_overflow live told value⟩)
      | some expiry => exact .inr (.inr ⟨expiry, rfl, rfl, claim_eq_put live told value⟩)

theorem live?_claim_of_ne (later : now ≤ moment) {key other : String} (different : key ≠ other)
    (value : String) (lifetime : Nat) :
    (cache.claim now key value lifetime).2.live? moment other = cache.live? moment other := by
  rcases cache.claim_cases now key value lifetime with
    ⟨-, claimed⟩ | ⟨-, -, claimed⟩ | ⟨expiry, -, -, claimed⟩
  · rw [claimed, live?_sweepIfDue later]
  · rw [claimed, live?_sweepIfDue later]
  · rw [claimed, live?_put later, if_neg different]

/-- What has been put is there until it expires, whenever it is looked for. -/
theorem live?_put_self (key value : String) (expiresAt : Option Nat) (moment : Nat) :
    (cache.put now key value expiresAt).live? moment key =
      (some ⟨value, expiresAt⟩).filter fun entry => entry.isLive moment := by
  unfold put live?
  simp only [Std.TreeMap.getElem?_insert, Std.LawfulEqCmp.compare_eq_iff_eq, if_true]

theorem live?_remove (key other : String) :
    (cache.remove key).live? moment other =
      if key = other then none else cache.live? moment other := by
  unfold remove live?
  simp only [Std.TreeMap.getElem?_erase, Std.LawfulEqCmp.compare_eq_iff_eq]
  split
  · rfl
  · rfl

theorem live?_removeAll (keys : List String) (other : String) :
    (cache.removeAll keys).live? moment other =
      if other ∈ keys then none else cache.live? moment other := by
  unfold removeAll
  induction keys generalizing cache with
  | nil => rfl
  | cons key keys ih =>
      rw [List.foldl_cons, ih, live?_remove]
      by_cases same : key = other
      · simp [same]
      · simp [same, Ne.symm same]

end ExpiringCache

end MarketStats
