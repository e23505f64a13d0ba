import MarketStats.Config
import MarketStats.Deployment.Basic

/-!
# Walking back over the hours

The volumes of a scope are aggregated hour by hour, from the latest hour back
to the first hour of the project.  The hours of the recent window are always
aggregated anew.  Further back the walk only fills in hours that have no row,
and it ends at the first hour that has one.  It looks whether it has been
cancelled before each hour.
-/

namespace MarketStats

/-- How far a pass has come: how often it has looked whether it was cancelled,
and how many rows it has put. -/
structure PassProgress where
  looks : Nat
  rows : Nat
deriving DecidableEq, Repr

/-- Whether a pass finds itself cancelled. -/
abbrev Cancellation := PassProgress → Bool

namespace PassProgress

def start : PassProgress :=
  { looks := 0, rows := 0 }

def look (progress : PassProgress) : PassProgress :=
  { progress with looks := progress.looks + 1 }

def put (progress : PassProgress) : PassProgress :=
  { progress with rows := progress.rows + 1 }

end PassProgress

namespace Cancellation

def never : Cancellation := fun _ => false

def afterRows (count : Nat) : Cancellation := fun progress => decide (count ≤ progress.rows)

end Cancellation

namespace Operation

def countRow (scope : VolumeScope) (counters : Counters) : Counters :=
  match scope with
  | .global => { counters with globalRowsPut := counters.globalRowsPut + 1 }
  | .collection _ => { counters with collectionRowsPut := counters.collectionRowsPut + 1 }

def aggregateHour (scope : VolumeScope) (hour : HourBucket) : Operation HourlyVolume := do
  let buyVolume ← askMarket (.volumeInRange scope hour.start hour.endInstant .buy)
  let listVolume ← askMarket (.volumeInRange scope hour.start hour.endInstant .list)
  let withdrawVolume ← askMarket (.volumeInRange scope hour.start hour.endInstant .withdraw)
  let row : HourlyVolume := { scope, hour, buyVolume, listVolume, withdrawVolume }
  askMarket (.putRow row)
  count (countRow scope)
  pure row

/-- Whether the walk ends in front of an hour behind the recent window. -/
def reachesFrontier (scope : VolumeScope) (window : Nat) (hour : HourBucket) : Operation Bool :=
  if window = 0 then askMarket (.hasRow scope hour) else pure false

/-- Walk back from an hour, with so many hours of the recent window left, and
with so many hours left up to the first one of the project. -/
def walkFrom (scope : VolumeScope) (cancelled : Cancellation) :
    (window remaining : Nat) → HourBucket → PassProgress → Operation PassProgress
  | _, 0, _, progress => pure progress
  | window, remaining + 1, hour, progress =>
      if cancelled progress then
        pure progress.look
      else do
        if ← reachesFrontier scope window hour then
          pure progress.look
        else
          let _ ← aggregateHour scope hour
          match hour.previous? with
          | none => pure progress.look.put
          | some earlier =>
              walkFrom scope cancelled (window - 1) remaining earlier progress.look.put

end Operation

end MarketStats
