import MarketStats.Statistics.Computation
import MarketStats.Statistics.Published

/-!
# Leases on recomputation

Whoever puts a claim on a collection into the shared tier recomputes its
statistics and publishes them; everybody else is served what was published
last.  A claim is not given back but runs out, whether or not the
recomputation succeeded, so there is at most one recomputation per lifetime of
a claim.  A claim that cannot be made because of a failure counts as lost.
-/

namespace MarketStats

def claimKey (tokenId : String) : String :=
  "stats:claim:" ++ tokenId

def claimMark : String := "true"

/-- What a recomputation needs to know: how long a claim lasts, and how many
tokens are read at a time. -/
structure LeaseSettings where
  claimLifetime : Nat
  batchSize : Nat
deriving DecidableEq, Repr

namespace Operation

def claim (settings : LeaseSettings) (tokenId : String) : Operation Bool := do
  match ← attempt (askShared (.claim (claimKey tokenId) claimMark settings.claimLifetime)) with
  | .ok won => pure won
  | .error _ => pure false

/-- Compute the statistics of a collection, set its scores, and publish the
statistics, in this order. -/
def recompute (settings : LeaseSettings) (tokenId : String) : Operation CollectionStatistics := do
  let info ← lookup tokenId
  let statistics ← computeStatistics info.collectionId settings.batchSize
  updateLeaderboards tokenId statistics
  writeStatistics tokenId statistics
  count fun counters => { counters with recomputations := counters.recomputations + 1 }
  pure statistics

/-- The statistics of a collection that were published last.  A miss is
counted. -/
def cachedStatistics (tokenId : String) : Operation CollectionStatistics := do
  match ← attempt (readStatistics tokenId) with
  | .ok statistics => pure statistics
  | .error cause => do
      if cause.isNotFound then
        count fun counters => { counters with cacheMisses := counters.cacheMisses + 1 }
      fail cause

/-- The statistics of a collection: recomputed by whoever wins the claim, and
as published last for everybody else. -/
def getStatistics (settings : LeaseSettings) (tokenId : String) :
    Operation CollectionStatistics := do
  if ← claim settings tokenId then
    recompute settings tokenId
  else
    count fun counters => { counters with claimsLost := counters.claimsLost + 1 }
    cachedStatistics tokenId

/-- Remove the published statistics of a collection and the claim on it. -/
def invalidate (tokenId : String) : Operation Unit :=
  askShared (.removeAll [statisticsKey tokenId, claimKey tokenId])

/-- Get the statistics of several collections, and count how many there are. -/
def warmAll (settings : LeaseSettings) : List CollectionInfo → Operation Nat
  | [] => pure 0
  | info :: rest => do
      let outcome ← attempt (getStatistics settings info.tokenId)
      let warmed ← warmAll settings rest
      pure (match outcome with
        | .ok _ => warmed + 1
        | .error _ => warmed)

/-- Get the statistics of every registered collection, and count how many there
are. -/
def warm (settings : LeaseSettings) : Operation Nat := do
  let infos ← collections
  warmAll settings infos

def isHealthy : Operation Bool := do
  match ← attempt (askShared (.get "_health_check")) with
  | .ok _ => pure true
  | .error _ => pure false

end Operation

end MarketStats
