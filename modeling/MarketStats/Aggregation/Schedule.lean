import MarketStats.Aggregation.Pass

/-!
# Aggregation in the background

A process may run passes in the background.  They are started once, the first
pass runs at once, and the outcome of every pass is counted.
-/

namespace MarketStats

namespace AggregationStatus

def tick (status : AggregationStatus) (now : Calendar.Instant) : AggregationStatus :=
  { status with lastTick := some now }

end AggregationStatus

namespace Deployment

def countCompleted (deployment : Deployment) : Deployment :=
  { deployment with
    counters :=
      { deployment.counters with passesCompleted := deployment.counters.passesCompleted + 1 }
    status := { deployment.status with passesCompleted := deployment.status.passesCompleted + 1 } }

def countFailed (deployment : Deployment) : Deployment :=
  { deployment with
    counters := { deployment.counters with passesFailed := deployment.counters.passesFailed + 1 }
    status := { deployment.status with passesFailed := deployment.status.passesFailed + 1 } }

/-- Run a pass in the background.  A pass that breaks off without an error is
not counted, and it ends the background work without anybody noticing. -/
def runScheduledPass (deployment : Deployment) (settings : AggregationSettings)
    (now : Calendar.Instant) : Deployment :=
  let ticked := { deployment with status := deployment.status.tick now }
  match (Operation.runPass settings .never now).runOn ticked with
  | (.ok _, after) => after.countCompleted
  | (.error (.error _), after) => after.countFailed
  | (.error _, after) => after

/-- Start the background work, unless it runs already, and run the first
pass. -/
def startAggregation (deployment : Deployment) (settings : AggregationSettings)
    (now : Calendar.Instant) : Deployment :=
  if deployment.status.running then
    deployment
  else
    let started := { deployment with status := { deployment.status with running := true } }
    started.runScheduledPass settings now

def stopAggregation (deployment : Deployment) : Deployment :=
  { deployment with status := { deployment.status with running := false } }

end Deployment

end MarketStats
