import MarketStats.Clock
import MarketStats.Failure
import Std.Data.TreeMap

/-!
# A cache whose entries expire

An entry with an expiry is present only while its expiry lies in the future.
Entries that have expired stay in memory until a later write finds that the
last purge is long enough ago.  Who asks for a lifetime whose end the clock
cannot tell breaks off.
-/

namespace MarketStats

/-- A value and the moment from which on it is absent. -/
structure CacheEntry where
  value : String
  expiresAt : Option Nat
deriving DecidableEq, Repr

/-- Entries, the moment of the last purge, and the least time between
purges. -/
structure ExpiringCache where
  entries : Std.TreeMap String CacheEntry
  lastSweep : Nat
  sweepInterval : Nat

namespace CacheEntry

def isLive (entry : CacheEntry) (now : Nat) : Bool :=
  match entry.expiresAt with
  | none => true
  | some moment => decide (now < moment)

end CacheEntry

namespace ExpiringCache

def empty (now sweepInterval : Nat) : ExpiringCache :=
  { entries := {}, lastSweep := now, sweepInterval }

def sweepIfDue (cache : ExpiringCache) (now : Nat) : ExpiringCache :=
  if now - cache.lastSweep < cache.sweepInterval then
    cache
  else
    { cache with
      entries := cache.entries.filter fun _ entry => entry.isLive now
      lastSweep := now }

def live? (cache : ExpiringCache) (now : Nat) (key : String) : Option CacheEntry :=
  cache.entries[key]?.filter fun entry => entry.isLive now

def get? (cache : ExpiringCache) (now : Nat) (key : String) : Option String :=
  (cache.live? now key).map CacheEntry.value

/-- Put a value under a key; without an expiry it does not expire. -/
def put (cache : ExpiringCache) (now : Nat) (key value : String) (expiresAt : Option Nat) :
    ExpiringCache :=
  let swept := cache.sweepIfDue now
  { swept with entries := swept.entries.insert key ⟨value, expiresAt⟩ }

/-- Put a value under a key for a while.  The expiry is found first, so nothing
is purged if there is none. -/
def putFor (cache : ExpiringCache) (now : Nat) (key value : String) (lifetime : Nat) :
    Except Failure Unit × ExpiringCache :=
  match Clock.after? now lifetime with
  | some expiry => (.ok (), cache.put now key value (some expiry))
  | none => (.error .clockOverflow, cache)

/-- Put a value under a key for a while, unless one is present; the flag says
whether it was put.  The expiry is found only for a value that is to be put. -/
def claim (cache : ExpiringCache) (now : Nat) (key value : String) (lifetime : Nat) :
    Except Failure Bool × ExpiringCache :=
  let swept := cache.sweepIfDue now
  if (swept.live? now key).isSome then
    (.ok false, swept)
  else
    match Clock.after? now lifetime with
    | some expiry =>
        (.ok true, { swept with entries := swept.entries.insert key ⟨value, some expiry⟩ })
    | none => (.error .clockOverflow, swept)

def remove (cache : ExpiringCache) (key : String) : ExpiringCache :=
  { cache with entries := cache.entries.erase key }

def removeAll (cache : ExpiringCache) (keys : List String) : ExpiringCache :=
  keys.foldl remove cache

/-- The number of entries in memory, expired ones included. -/
def size (cache : ExpiringCache) : Nat :=
  cache.entries.size

end ExpiringCache

end MarketStats
