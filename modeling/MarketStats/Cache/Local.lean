import MarketStats.Cache.Expiring
import MarketStats.Failure

/-!
# The local tier

Each process keeps copies of small values within a budget of bytes, which
counts keys and values.  An entry that is larger than the whole budget is
refused, and a tier without a budget keeps nothing.  Entries may vanish at any
time; whoever has to know whether an entry was kept asks for it to be put
with a check.
-/

namespace MarketStats

/-- The copies of one process. -/
structure LocalTier where
  entries : Std.TreeMap String CacheEntry
  budget : Nat
  defaultLifetime : Nat

namespace LocalTier

def empty (budget defaultLifetime : Nat) : LocalTier :=
  { entries := {}, budget, defaultLifetime }

def cost (key value : String) : Nat :=
  key.utf8ByteSize + value.utf8ByteSize

def live? (tier : LocalTier) (now : Nat) (key : String) : Option CacheEntry :=
  tier.entries[key]?.filter fun entry => entry.isLive now

def get? (tier : LocalTier) (now : Nat) (key : String) : Option String :=
  (tier.live? now key).map CacheEntry.value

def tooLarge (tier : LocalTier) (key value : String) : StatsError :=
  .setFailed key
    ("entry cost " ++ (cost key value).repr ++ " exceeds cache budget " ++ tier.budget.repr)

/-- Put a value under a key; without a lifetime it does not expire. -/
def put (tier : LocalTier) (now : Nat) (key value : String) (lifetime : Option Nat) :
    Except StatsError LocalTier :=
  if tier.budget < cost key value then
    .error (tier.tooLarge key value)
  else if tier.budget = 0 then
    .ok tier
  else
    .ok
      { tier with
        entries := tier.entries.insert key ⟨value, lifetime.map fun span => now + span⟩ }

def notKept (key : String) : StatsError :=
  .setFailed key "rejected by admission policy"

/-- Put a value under a key and check that it was kept.  The tier is changed
also when the check fails. -/
def putChecked (tier : LocalTier) (now : Nat) (key value : String) (lifetime : Nat) :
    Except StatsError Unit × LocalTier :=
  match tier.put now key value (some lifetime) with
  | .error cause => (.error cause, tier)
  | .ok changed =>
      if (changed.live? now key).isSome then (.ok (), changed) else (.error (notKept key), changed)

def remove (tier : LocalTier) (key : String) : LocalTier :=
  { tier with entries := tier.entries.erase key }

def removeAll (tier : LocalTier) (keys : List String) : LocalTier :=
  keys.foldl remove tier

end LocalTier

end MarketStats
