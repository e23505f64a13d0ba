import MarketStats.Aggregation.Walk

/-!
# Passes

A pass walks back over the hours of the whole marketplace and then, if it is
asked to, over those of every collection.  The first request that fails breaks
it off; what it has put stays, and the rest is left to the next pass.
-/

namespace MarketStats

/-- What a pass has done: how many scopes it walked, and how many rows it put. -/
structure PassSummary where
  scopes : Nat
  hours : Nat
deriving DecidableEq, Repr

namespace AggregationSettings

def floor (settings : AggregationSettings) : HourBucket :=
  HourBucket.containing settings.projectStart

end AggregationSettings

namespace Operation

def walk (settings : AggregationSettings) (cancelled : Cancellation) (now : Calendar.Instant)
    (scope : VolumeScope) (progress : PassProgress) : Operation PassProgress :=
  let hour := HourBucket.containing now
  walkFrom scope cancelled settings.recentWindowHours (settings.floor.span hour) hour progress

/-- Walk back over the hours of some collections, with so many scopes walked
before. -/
def walkCollections (settings : AggregationSettings) (cancelled : Cancellation)
    (now : Calendar.Instant) :
    List Int64 → (scopes : Nat) → PassProgress → Operation PassSummary
  | [], scopes, progress => pure { scopes, hours := progress.rows }
  | collectionId :: rest, scopes, progress =>
      if cancelled progress then
        pure { scopes, hours := progress.rows }
      else do
        let walked ← walk settings cancelled now (.collection collectionId) progress.look
        walkCollections settings cancelled now rest (scopes + 1) walked

def runPass (settings : AggregationSettings) (cancelled : Cancellation)
    (now : Calendar.Instant) : Operation PassSummary := do
  let progress ← walk settings cancelled now .global .start
  if settings.perCollection then
    let collectionIds ← askMarket .collectionIds
    walkCollections settings cancelled now collectionIds 1 progress
  else
    pure { scopes := 1, hours := progress.rows }

end Operation

end MarketStats
