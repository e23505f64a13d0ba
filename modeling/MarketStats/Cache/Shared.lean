import MarketStats.Cache.Expiring
import MarketStats.Cache.Ranking

/-!
# The shared tier

The shared tier is the part of the cache that all processes see: entries that
may expire, and rankings.  It is used through requests, and every request has
an answer of its own type, or breaks off.
-/

namespace MarketStats

/-- The entries and rankings that all processes see. -/
structure SharedTier where
  entries : ExpiringCache
  rankings : Rankings

/-- What the shared tier can be asked to do.  Lifetimes are spans of the
clock. -/
inductive SharedRequest
  | get (key : String)
  | put (key value : String) (lifetime : Nat)
  | keep (key value : String)
  | remove (key : String)
  | removeAll (keys : List String)
  /-- Put a value under a key for a while, unless one is present. -/
  | claim (key value : String) (lifetime : Nat)
  | rank (key member : String) (score : Double)
  | ranked (key : String) (first last : Int) (descending : Bool)
deriving DecidableEq

namespace SharedRequest

/-- The type of the answer to a request. -/
abbrev Answer : SharedRequest → Type
  | .get _ => Option String
  | .put _ _ _ => Unit
  | .keep _ _ => Unit
  | .remove _ => Unit
  | .removeAll _ => Unit
  | .claim _ _ _ => Bool
  | .rank _ _ _ => Unit
  | .ranked _ _ _ _ => List String

/-- The key that stands for a request; of several keys it is the first. -/
def label : SharedRequest → String
  | .get key => key
  | .put key _ _ => key
  | .keep key _ => key
  | .remove key => key
  | .removeAll keys => keys.head?.getD ""
  | .claim key _ _ => key
  | .rank key _ _ => key
  | .ranked key _ _ _ => key

end SharedRequest

namespace SharedTier

def empty (now sweepInterval : Nat) : SharedTier :=
  { entries := .empty now sweepInterval, rankings := .empty }

def perform (tier : SharedTier) (now : Nat) :
    (request : SharedRequest) → Except Failure request.Answer × SharedTier
  | .get key => (.ok (tier.entries.get? now key), tier)
  | .put key value lifetime =>
      let (outcome, entries) := tier.entries.putFor now key value lifetime
      (outcome, { tier with entries })
  | .keep key value => (.ok (), { tier with entries := tier.entries.put now key value none })
  | .remove key => (.ok (), { tier with entries := tier.entries.remove key })
  | .removeAll keys => (.ok (), { tier with entries := tier.entries.removeAll keys })
  | .claim key value lifetime =>
      let (outcome, entries) := tier.entries.claim now key value lifetime
      (outcome, { tier with entries })
  | .rank key member score =>
      (.ok (), { tier with rankings := tier.rankings.add key member score })
  | .ranked key first last descending =>
      (.ok (tier.rankings.range key first last descending), tier)

end SharedTier

end MarketStats
