import MarketStats.Deployment.Outage
import MarketStats.Registry

/-!
# Deployments and operations

A deployment is a process together with its backends: the marketplace store,
the shared tier, and the registry with the side store and the local tier.  An
operation runs on a deployment.  It answers or fails, and either way it leaves
behind a changed deployment, since what was done before a failure stays done.

Requests to the marketplace store and to the shared tier may meet outages.
Each request is noted in the journal, whether or not it fails; the journal has
the latest request first.
-/

namespace MarketStats

/-- How often something noteworthy has happened. -/
structure Counters where
  recomputations : Nat
  claimsLost : Nat
  cacheMisses : Nat
  entriesSkipped : Nat
  globalRowsPut : Nat
  collectionRowsPut : Nat
  passesCompleted : Nat
  passesFailed : Nat
deriving DecidableEq, Repr

/-- What is known about the background aggregation of a process. -/
structure AggregationStatus where
  running : Bool
  lastTick : Option Calendar.Instant
  passesCompleted : Nat
  passesFailed : Nat
deriving DecidableEq

/-- A process together with its backends, at a reading of the clock. -/
structure Deployment where
  market : Marketplace
  pageCap : Option Nat
  shared : SharedTier
  registry : Registry
  now : Nat
  outages : List Outage
  journal : List Request
  counters : Counters
  status : AggregationStatus

/-- An operation on a deployment. -/
abbrev Operation := ExceptT Failure (StateM Deployment)

namespace Counters

def zero : Counters :=
  { recomputations := 0
    claimsLost := 0
    cacheMisses := 0
    entriesSkipped := 0
    globalRowsPut := 0
    collectionRowsPut := 0
    passesCompleted := 0
    passesFailed := 0 }

def published (counters : Counters) : List (String × Nat) :=
  [("stats_recomputations_total", counters.recomputations),
    ("stats_claims_lost_total", counters.claimsLost),
    ("stats_cache_misses_total", counters.cacheMisses),
    ("leaderboard_entries_skipped_total", counters.entriesSkipped),
    ("hourly_volume_upserts_total\x7bscope=global\x7d", counters.globalRowsPut),
    ("hourly_volume_upserts_total\x7bscope=collection\x7d", counters.collectionRowsPut),
    ("hourly_aggregation_passes_total\x7bstatus=ok\x7d", counters.passesCompleted),
    ("hourly_aggregation_passes_total\x7bstatus=error\x7d", counters.passesFailed)]

end Counters

namespace AggregationStatus

def idle : AggregationStatus :=
  { running := false, lastTick := none, passesCompleted := 0, passesFailed := 0 }

end AggregationStatus

namespace Deployment

def empty (now sweepInterval localBudget localLifetime : Nat) (pageCap : Option Nat) :
    Deployment :=
  { market := .empty
    pageCap
    shared := .empty now sweepInterval
    registry := { store := .empty, copies := .empty localBudget localLifetime }
    now
    outages := []
    journal := []
    counters := .zero
    status := .idle }

def restart (deployment : Deployment) : Deployment :=
  { deployment with registry := deployment.registry.reopen, status := .idle }

def isStruckBy (deployment : Deployment) (request : Request) : Bool :=
  (Outage.strikeAll deployment.outages request).1

def afterRequest (deployment : Deployment) (request : Request) : Deployment :=
  { deployment with
    outages := (Outage.strikeAll deployment.outages request).2
    journal := request :: deployment.journal }

theorem isStruckBy_of_no_outages {deployment : Deployment} (clear : deployment.outages = [])
    (request : Request) : deployment.isStruckBy request = false := by
  simp [isStruckBy, clear]

theorem outages_afterRequest_of_no_outages {deployment : Deployment}
    (clear : deployment.outages = []) (request : Request) :
    (deployment.afterRequest request).outages = [] := by
  simp [afterRequest, clear]

end Deployment

namespace Operation

/-- Run an operation: its outcome, and the deployment that it leaves behind. -/
def runOn {α : Type} (operation : Operation α) (deployment : Deployment) :
    Except Failure α × Deployment :=
  (ExceptT.run operation).run deployment

def fail {α : Type} (cause : StatsError) : Operation α :=
  throw (.error cause)

/-- Go on with a result, or fail with its error. -/
def settle {α : Type} : Except StatsError α → Operation α
  | .ok value => pure value
  | .error cause => fail cause

def attempt {α : Type} (operation : Operation α) : Operation (Except StatsError α) :=
  ExceptT.mk do
    match ← ExceptT.run operation with
    | .ok value => pure (.ok (.ok value))
    | .error (.error cause) => pure (.ok (.error cause))
    | .error failure => pure (.error failure)

def count (increase : Counters → Counters) : Operation Unit :=
  modify fun deployment => { deployment with counters := increase deployment.counters }

def issue (request : Request) : Operation Unit := do
  let deployment ← get
  set (deployment.afterRequest request)
  if deployment.isStruckBy request then fail request.endpoint.outageError

def askMarket (request : MarketRequest) : Operation request.Answer := do
  issue (.market request)
  let deployment ← get
  let (answer, market) := deployment.market.perform deployment.pageCap request
  set { deployment with market }
  match answer with
  | .ok value => pure value
  | .error failure => throw failure

def askShared (request : SharedRequest) : Operation request.Answer := do
  issue (.shared request)
  let deployment ← get
  let (answer, shared) := deployment.shared.perform deployment.now request
  set { deployment with shared }
  match answer with
  | .ok value => pure value
  | .error failure => throw failure

def useRegistry {α : Type} (use : Nat → Registry → Except StatsError α × Registry) :
    Operation α := do
  let deployment ← get
  let (result, registry) := use deployment.now deployment.registry
  set { deployment with registry }
  settle result

/-- Create a mapping, or correct the name of the one that exists. -/
def register (info : CollectionInfo) : Operation CollectionInfo :=
  useRegistry fun _ registry => registry.register info

def rename (tokenId name : String) : Operation CollectionInfo :=
  useRegistry fun _ registry => registry.rename tokenId name

def lookup (tokenId : String) : Operation CollectionInfo :=
  useRegistry fun now registry => registry.lookup now tokenId

def collections : Operation (List CollectionInfo) :=
  useRegistry fun _ registry => (registry.list, registry)

@[simp]
theorem runOn_pure {α : Type} (value : α) (deployment : Deployment) :
    runOn (pure value) deployment = (.ok value, deployment) := rfl

@[simp]
theorem runOn_fail {α : Type} (cause : StatsError) (deployment : Deployment) :
    runOn (fail cause : Operation α) deployment = (.error (.error cause), deployment) := rfl

@[simp]
theorem runOn_throw {α : Type} (failure : Failure) (deployment : Deployment) :
    runOn (throw failure : Operation α) deployment = (.error failure, deployment) := rfl

@[simp]
theorem runOn_get (deployment : Deployment) :
    runOn get deployment = (.ok deployment, deployment) := rfl

@[simp]
theorem runOn_set (changed deployment : Deployment) :
    runOn (set changed) deployment = (.ok ⟨⟩, changed) := rfl

/-- An operation behind another one runs on what the first one leaves behind,
and does not run when the first one fails. -/
theorem runOn_bind {α β : Type} (first : Operation α) (second : α → Operation β)
    (deployment : Deployment) :
    runOn (first >>= second) deployment =
      match runOn first deployment with
      | (.ok value, after) => runOn (second value) after
      | (.error failure, after) => (.error failure, after) := by
  simp only [runOn, ExceptT.run_bind, StateT.run_bind]
  rcases StateT.run (ExceptT.run first) deployment with ⟨_ | _, _⟩ <;> rfl

theorem runOn_attempt {α : Type} (operation : Operation α) (deployment : Deployment) :
    runOn (attempt operation) deployment =
      match runOn operation deployment with
      | (.ok value, after) => (.ok (.ok value), after)
      | (.error (.error cause), after) => (.ok (.error cause), after)
      | (.error failure, after) => (.error failure, after) := by
  simp only [runOn, attempt, ExceptT.run_mk, StateT.run_bind]
  rcases StateT.run (ExceptT.run operation) deployment with ⟨(_ | _) | _, _⟩ <;> rfl

theorem runOn_issue (request : Request) (deployment : Deployment) :
    runOn (issue request) deployment =
      (if deployment.isStruckBy request then
          .error (.error request.endpoint.outageError)
        else
          .ok (),
        deployment.afterRequest request) := by
  simp only [issue, runOn_bind, runOn_get, runOn_set]
  split <;> simp

theorem runOn_askMarket (request : MarketRequest) (deployment : Deployment) :
    runOn (askMarket request) deployment =
      if deployment.isStruckBy (.market request) then
        (.error (.error (Request.market request).endpoint.outageError),
          deployment.afterRequest (.market request))
      else
        ((deployment.market.perform deployment.pageCap request).1,
          { deployment.afterRequest (.market request) with
            market := (deployment.market.perform deployment.pageCap request).2 }) := by
  cases struck : deployment.isStruckBy (.market request) with
  | true => simp [askMarket, runOn_bind, runOn_issue, struck]
  | false =>
      simp only [askMarket, runOn_bind, runOn_issue, runOn_get, runOn_set, struck,
        Bool.false_eq_true, if_false, Deployment.afterRequest]
      cases (deployment.market.perform deployment.pageCap request).1 <;> rfl

theorem runOn_askShared (request : SharedRequest) (deployment : Deployment) :
    runOn (askShared request) deployment =
      if deployment.isStruckBy (.shared request) then
        (.error (.error (Request.shared request).endpoint.outageError),
          deployment.afterRequest (.shared request))
      else
        ((deployment.shared.perform deployment.now request).1,
          { deployment.afterRequest (.shared request) with
            shared := (deployment.shared.perform deployment.now request).2 }) := by
  cases struck : deployment.isStruckBy (.shared request) with
  | true => simp [askShared, runOn_bind, runOn_issue, struck]
  | false =>
      simp only [askShared, runOn_bind, runOn_issue, runOn_get, runOn_set, struck,
        Bool.false_eq_true, if_false, Deployment.afterRequest]
      cases (deployment.shared.perform deployment.now request).1 <;> rfl

theorem runOn_useRegistry {α : Type} (use : Nat → Registry → Except StatsError α × Registry)
    (deployment : Deployment) :
    runOn (useRegistry use) deployment =
      ((use deployment.now deployment.registry).1.mapError Failure.error,
        { deployment with registry := (use deployment.now deployment.registry).2 }) := by
  simp only [useRegistry, runOn_bind, runOn_get, runOn_set]
  cases (use deployment.now deployment.registry).1 <;> rfl

@[simp]
theorem runOn_count (increase : Counters → Counters) (deployment : Deployment) :
    runOn (count increase) deployment =
      (.ok (), { deployment with counters := increase deployment.counters }) := rfl

end Operation

end MarketStats
