import MarketStats.Proofs.Aggregation.Reach
import MarketStats.Proofs.HourBucket.Instants

/-!
# Runs of passes

Between passes, transactions are recorded and tokens are added.  A run is a
list of such steps.  Every pass of a run has its own outages, so any of its
requests may fail, and may be cancelled.
-/

namespace MarketStats

/-- A pass of a run: the instant as of which it aggregates, the outages that it
meets, and when it is cancelled. -/
structure PlannedPass where
  now : Calendar.Instant
  outages : List Outage
  cancelled : Cancellation

inductive MarketStep
  | record (transaction : Transaction)
  | addToken (collectionId : Int64) (token : Token)
  | pass (planned : PlannedPass)

namespace PlannedPass

def hour (planned : PlannedPass) : HourBucket :=
  HourBucket.containing planned.now

/-- Run a planned pass: its outcome, and what it leaves behind. -/
def runOn (planned : PlannedPass) (settings : AggregationSettings) (deployment : Deployment) :
    Except Failure PassSummary × Deployment :=
  (Operation.runPass settings planned.cancelled planned.now).runOn
    { deployment with outages := planned.outages }

end PlannedPass

namespace MarketStep

def moment? : MarketStep → Option Calendar.Instant
  | .pass planned => some planned.now
  | _ => none

/-- Time does not run back between the passes of a run. -/
def Ordered (steps : List MarketStep) : Prop :=
  (steps.filterMap moment?).Pairwise (· ≤ ·)

instance (steps : List MarketStep) : Decidable (Ordered steps) :=
  inferInstanceAs (Decidable (List.Pairwise _ _))

end MarketStep

namespace Deployment

def afterStep (settings : AggregationSettings) (deployment : Deployment) :
    MarketStep → Deployment
  | .record transaction => { deployment with market := deployment.market.record transaction }
  | .addToken collectionId token =>
      { deployment with market := deployment.market.addToken collectionId token }
  | .pass planned => (planned.runOn settings deployment).2

def afterSteps (settings : AggregationSettings) (deployment : Deployment)
    (steps : List MarketStep) : Deployment :=
  steps.foldl (afterStep settings) deployment

@[simp]
theorem afterSteps_nil (settings : AggregationSettings) (deployment : Deployment) :
    deployment.afterSteps settings [] = deployment := rfl

@[simp]
theorem afterSteps_cons (settings : AggregationSettings) (deployment : Deployment)
    (step : MarketStep) (rest : List MarketStep) :
    deployment.afterSteps settings (step :: rest) =
      (deployment.afterStep settings step).afterSteps settings rest := rfl

theorem afterSteps_append (settings : AggregationSettings) (deployment : Deployment)
    (first second : List MarketStep) :
    deployment.afterSteps settings (first ++ second) =
      (deployment.afterSteps settings first).afterSteps settings second :=
  List.foldl_append

end Deployment

namespace PlannedPass

theorem runOn_eq (planned : PlannedPass) (settings : AggregationSettings)
    (deployment : Deployment) :
    (Operation.runPass settings planned.cancelled planned.now).runOn
        { deployment with outages := planned.outages } =
      ((planned.runOn settings deployment).1, (planned.runOn settings deployment).2) := rfl

/-- There are hours of each scope whose rows a planned pass has put. -/
theorem exists_passes (planned : PlannedPass) (settings : AggregationSettings)
    (deployment : Deployment) :
    ∃ written, Operation.Passes (settings.scopes deployment.market) planned.cancelled
      settings.recentWindowHours settings.floor planned.hour 0
      { deployment with outages := planned.outages } (planned.runOn settings deployment).2
      (planned.runOn settings deployment).1 written :=
  Operation.exists_passes_of_runPass (planned.runOn_eq settings deployment)

/-- What a planned pass leaves behind in the rows of a scope. -/
theorem passedOver (planned : PlannedPass) (settings : AggregationSettings)
    (deployment : Deployment) (scope : VolumeScope) :
    Marketplace.PassedOver scope settings.recentWindowHours settings.floor planned.hour
      (scope ∈ settings.scopes deployment.market)
      ((planned.runOn settings deployment).1.isOk = true ∧ planned.cancelled = .never)
      deployment.market (planned.runOn settings deployment).2.market := by
  obtain ⟨written, passes⟩ := planned.exists_passes settings deployment
  exact passes.passedOver scope

theorem transactions_runOn (planned : PlannedPass) (settings : AggregationSettings)
    (deployment : Deployment) :
    (planned.runOn settings deployment).2.market.transactions = deployment.market.transactions := by
  obtain ⟨written, passes⟩ := planned.exists_passes settings deployment
  exact passes.transactions

theorem tokens_runOn (planned : PlannedPass) (settings : AggregationSettings)
    (deployment : Deployment) :
    (planned.runOn settings deployment).2.market.tokens = deployment.market.tokens := by
  obtain ⟨written, passes⟩ := planned.exists_passes settings deployment
  exact passes.tokens

end PlannedPass

/-- Hours of one project, aggregated with a recent window of some hours. -/
def hourlySettings (window : Nat) : AggregationSettings :=
  { intervalSecs := 3600
    recentWindowHours := window
    projectStart := .ofSecond 1714521600 (by decide) (by decide)
    perCollection := false }

def thirdHourPass (outages : List Outage) : PlannedPass :=
  { now := .ofSecond 1714530600 (by decide) (by decide)
    outages
    cancelled := .never }

def thirdHourSale : Transaction :=
  { collectionId := 1
    kind := .buy
    price := (Decimal.ofParts? false 15 1).getD .zero
    timestamp := .ofSecond 1714530000 (by decide) (by decide) }

end MarketStats
