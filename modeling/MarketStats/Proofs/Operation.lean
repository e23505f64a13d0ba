import MarketStats.Deployment.Basic

/-!
# Following an operation through its parts

An operation is a chain of requests, and it may break off behind any of them.
What holds of an operation whatever becomes of it is therefore stated as a
relation between the deployment that it starts from and the one that it leaves
behind.  A relation that chains holds of an operation as soon as it holds of
its parts.
-/

namespace MarketStats

namespace Operation

variable {α β : Type}

/-- A relation that holds between a deployment and itself, and that can be
followed from one deployment over a second one to a third. -/
structure Chains (relation : Deployment → Deployment → Prop) : Prop where
  refl : ∀ deployment, relation deployment deployment
  trans : ∀ {first second third}, relation first second → relation second third →
    relation first third

/-- Whether an operation succeeds or fails, a relation holds between the
deployment that it starts from and the one that it leaves behind. -/
def Within (relation : Deployment → Deployment → Prop) (operation : Operation α) : Prop :=
  ∀ deployment, relation deployment (operation.runOn deployment).2

/-- Two deployments agree in everything that can be read off them in some
way. -/
def Keeps {δ : Type} (view : Deployment → δ) (before after : Deployment) : Prop :=
  view after = view before

theorem chains_keeps {δ : Type} (view : Deployment → δ) : Chains (Keeps view) where
  refl _ := rfl
  trans first second := second.trans first

theorem runOn_bind_of_ok {first : Operation α} {second : α → Operation β}
    {before middle : Deployment} {value : α} (ran : first.runOn before = (.ok value, middle)) :
    (first >>= second).runOn before = (second value).runOn middle := by
  rw [runOn_bind, ran]

theorem runOn_bind_of_error {first : Operation α} {second : α → Operation β}
    {before middle : Deployment} {failure : Failure}
    (ran : first.runOn before = (.error failure, middle)) :
    (first >>= second).runOn before = (.error failure, middle) := by
  rw [runOn_bind, ran]

/-- An operation behind another one succeeds only if both do. -/
theorem runOn_bind_eq_ok {first : Operation α} {second : α → Operation β}
    {before after : Deployment} {result : β}
    (ran : (first >>= second).runOn before = (.ok result, after)) :
    ∃ value middle, first.runOn before = (.ok value, middle) ∧
      (second value).runOn middle = (.ok result, after) := by
  rcases outcome : first.runOn before with ⟨failure | value, middle⟩
  · rw [runOn_bind_of_error outcome] at ran
    simp at ran
  · rw [runOn_bind_of_ok outcome] at ran
    exact ⟨value, middle, rfl, ran⟩

theorem runOn_attempt_of_ok {operation : Operation α} {before after : Deployment} {value : α}
    (ran : operation.runOn before = (.ok value, after)) :
    (attempt operation).runOn before = (.ok (.ok value), after) := by
  rw [runOn_attempt, ran]

theorem runOn_attempt_of_error {operation : Operation α} {before after : Deployment}
    {cause : StatsError} (ran : operation.runOn before = (.error (.error cause), after)) :
    (attempt operation).runOn before = (.ok (.error cause), after) := by
  rw [runOn_attempt, ran]

/-- Whoever tries an operation that breaks off breaks off as well. -/
theorem runOn_attempt_of_breakOff {operation : Operation α} {before after : Deployment}
    {failure : Failure} (ran : operation.runOn before = (.error failure, after))
    (noError : ∀ cause, failure ≠ .error cause) :
    (attempt operation).runOn before = (.error failure, after) := by
  rw [runOn_attempt, ran]
  cases failure with
  | error cause => exact absurd rfl (noError cause)
  | _ => rfl

theorem runOn_bind_pure_snd (operation : Operation α) (change : α → β) (before : Deployment) :
    ((operation >>= fun value => pure (change value)).runOn before).2 =
      (operation.runOn before).2 := by
  rw [runOn_bind]
  rcases operation.runOn before with ⟨failure | value, after⟩
  · rfl
  · rfl

theorem runOn_cases (operation : Operation α) (before : Deployment) :
    (∃ value after, operation.runOn before = (.ok value, after)) ∨
      ∃ failure after, operation.runOn before = (.error failure, after) := by
  rcases operation.runOn before with ⟨failure | value, after⟩
  · exact .inr ⟨failure, after, rfl⟩
  · exact .inl ⟨value, after, rfl⟩

namespace Within

variable {relation : Deployment → Deployment → Prop}

theorem of_ran {operation : Operation α} (within : Within relation operation)
    {before after : Deployment} {outcome : Except Failure α}
    (ran : operation.runOn before = (outcome, after)) : relation before after := by
  have related := within before
  rw [ran] at related
  exact related

theorem pure (chains : Chains relation) (value : α) :
    Within relation (Pure.pure value : Operation α) :=
  chains.refl

theorem fail (chains : Chains relation) (cause : StatsError) :
    Within relation (Operation.fail cause : Operation α) :=
  chains.refl

theorem bind (chains : Chains relation) {first : Operation α} {second : α → Operation β}
    (firstWithin : Within relation first) (secondWithin : ∀ value, Within relation (second value)) :
    Within relation (first >>= second) := by
  intro deployment
  rcases outcome : first.runOn deployment with ⟨failure | value, middle⟩
  · rw [runOn_bind_of_error outcome]
    exact firstWithin.of_ran outcome
  · rw [runOn_bind_of_ok outcome]
    exact chains.trans (firstWithin.of_ran outcome) (secondWithin value middle)

theorem attempt {operation : Operation α} (within : Within relation operation) :
    Within relation (Operation.attempt operation) := by
  intro deployment
  rw [runOn_attempt]
  rcases outcome : operation.runOn deployment with ⟨(cause | _ | _ | _) | value, after⟩ <;>
    exact within.of_ran outcome

theorem count (blind : ∀ deployment counters, relation deployment { deployment with counters })
    (increase : Counters → Counters) : Within relation (Operation.count increase) :=
  fun deployment => blind deployment (increase deployment.counters)

end Within

/-- On deployments that are related an operation gives the same answer, and it
leaves behind deployments that are related again. -/
def Respects (relation : Deployment → Deployment → Prop) (operation : Operation α) : Prop :=
  ∀ first second, relation first second →
    (operation.runOn second).1 = (operation.runOn first).1 ∧
      relation (operation.runOn first).2 (operation.runOn second).2

namespace Respects

variable {relation : Deployment → Deployment → Prop}

theorem pure (value : α) : Respects relation (Pure.pure value : Operation α) :=
  fun _ _ related => ⟨rfl, related⟩

theorem fail (cause : StatsError) : Respects relation (Operation.fail cause : Operation α) :=
  fun _ _ related => ⟨rfl, related⟩

theorem bind {first : Operation α} {second : α → Operation β}
    (firstRespects : Respects relation first)
    (secondRespects : ∀ value, Respects relation (second value)) :
    Respects relation (first >>= second) := by
  intro left right related
  obtain ⟨sameOutcome, relatedMiddle⟩ := firstRespects left right related
  rcases ranRight : first.runOn right with ⟨outcome, middleRight⟩
  rcases ranLeft : first.runOn left with ⟨_ | value, middleLeft⟩
  · rw [ranLeft, ranRight] at sameOutcome relatedMiddle
    cases sameOutcome
    rw [runOn_bind_of_error ranLeft, runOn_bind_of_error ranRight]
    exact ⟨rfl, relatedMiddle⟩
  · rw [ranLeft, ranRight] at sameOutcome relatedMiddle
    cases sameOutcome
    rw [runOn_bind_of_ok ranLeft, runOn_bind_of_ok ranRight]
    exact secondRespects value _ _ relatedMiddle

theorem attempt {operation : Operation α} (respects : Respects relation operation) :
    Respects relation (Operation.attempt operation) := by
  intro left right related
  obtain ⟨sameOutcome, relatedAfter⟩ := respects left right related
  rw [runOn_attempt, runOn_attempt]
  rcases ranRight : operation.runOn right with ⟨outcome, afterRight⟩
  rcases ranLeft : operation.runOn left with ⟨(cause | _ | _ | _) | value, afterLeft⟩ <;>
    rw [ranLeft, ranRight] at sameOutcome relatedAfter <;> cases sameOutcome <;>
    exact ⟨rfl, relatedAfter⟩

end Respects

/-- A request that the marketplace store does not answer leaves it as it is. -/
theorem perform_eq_of_error {market : Marketplace} {pageCap : Option Nat}
    {request : MarketRequest} {failure : Failure}
    (failed : (market.perform pageCap request).1 = .error failure) :
    (market.perform pageCap request).2 = market := by
  cases request with
  | putRow row => simp [Marketplace.perform] at failed
  | _ => rfl

/-- A request to the marketplace store is answered by the store, or it fails
and only leaves traces in the journal and the outages. -/
theorem runOn_askMarket_cases (request : MarketRequest) (before : Deployment) :
    (∃ failure, (askMarket request).runOn before =
        (.error failure, before.afterRequest (.market request))) ∨
      ∃ answer, (before.market.perform before.pageCap request).1 = .ok answer ∧
        (askMarket request).runOn before =
          (.ok answer,
            { before.afterRequest (.market request) with
              market := (before.market.perform before.pageCap request).2 }) := by
  rw [runOn_askMarket]
  split
  · exact .inl ⟨_, rfl⟩
  · cases answered : (before.market.perform before.pageCap request).1 with
    | error failure =>
        left
        refine ⟨failure, ?_⟩
        rw [perform_eq_of_error answered]
        rfl
    | ok answer => exact .inr ⟨answer, rfl, rfl⟩

/-- A request to the shared tier reaches the tier, or it meets an outage and only
leaves traces in the journal and the outages. -/
theorem runOn_askShared_cases (request : SharedRequest) (before : Deployment) :
    (before.isStruckBy (.shared request) = true ∧
      (askShared request).runOn before =
        (.error (.error (Request.shared request).endpoint.outageError),
          before.afterRequest (.shared request))) ∨
      (before.isStruckBy (.shared request) = false ∧
        (askShared request).runOn before =
          ((before.shared.perform before.now request).1,
            { before.afterRequest (.shared request) with
              shared := (before.shared.perform before.now request).2 })) := by
  rw [runOn_askShared]
  cases before.isStruckBy (.shared request) with
  | true => exact .inl ⟨rfl, rfl⟩
  | false => exact .inr ⟨rfl, rfl⟩

end Operation

end MarketStats
