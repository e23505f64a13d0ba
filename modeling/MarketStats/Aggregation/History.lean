import MarketStats.Aggregation.Pass

/-!
# The history of volumes

The history of a scope is made up of its rows for the last hours, but not for
hours before the start of the project.
-/

namespace MarketStats

namespace Operation

def historyOutOfRange (hours : Nat) : StatsError :=
  .validation ("volume history of " ++ hours.repr ++ " hours is out of range")

/-- The rows of a scope for a number of hours up to that of an instant. -/
def volumeHistory (settings : AggregationSettings) (scope : VolumeScope)
    (now : Calendar.Instant) (hours : Nat) : Operation (List HourlyVolume) :=
  let last := HourBucket.containing now
  if hours = 0 ∨ last < settings.floor then
    pure []
  else
    match last.hoursBefore? (hours - 1) with
    | none => fail (historyOutOfRange hours)
    | some first => askMarket (.rowsBetween scope (max first settings.floor) last)

end Operation

end MarketStats
