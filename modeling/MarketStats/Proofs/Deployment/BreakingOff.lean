import MarketStats.Proofs.Operation

/-!
# Operations that break off

An operation that never goes on behind a failure succeeds only if all of its
requests are answered.  If it fails, then a request has failed for the same
reason, and nothing has happened since.
-/

namespace MarketStats

theorem Operation.eq_of_runOn_askMarket {request : MarketRequest} {answer : request.Answer}
    {before after : Deployment}
    (ran : (askMarket request).runOn before = (.ok answer, after)) :
    after =
      { before.afterRequest (.market request) with
        market := (before.market.perform before.pageCap request).2 } := by
  rcases runOn_askMarket_cases request before with ⟨_, failed⟩ | ⟨_, -, answered⟩
  · rw [failed] at ran
    exact nomatch (Prod.mk.inj ran).1
  · rw [answered] at ran
    exact (Prod.mk.inj ran).2.symm

theorem Operation.perform_eq_of_runOn_askMarket {request : MarketRequest}
    {answer : request.Answer} {before after : Deployment}
    (ran : (askMarket request).runOn before = (.ok answer, after)) :
    (before.market.perform before.pageCap request).1 = .ok answer := by
  rcases runOn_askMarket_cases request before with ⟨_, failed⟩ | ⟨_, performed, answered⟩
  · rw [failed] at ran
    exact nomatch (Prod.mk.inj ran).1
  · rw [answered] at ran
    exact performed.trans (Prod.mk.inj ran).1

namespace Deployment

/-- Only requests of one sort have been made to the marketplace store, and all
of them have been answered.  Counting makes no request. -/
inductive Answered (allowed : MarketRequest → Prop) : Deployment → Deployment → Prop
  | nothing (deployment : Deployment) : Answered allowed deployment deployment
  | ask {request : MarketRequest} {answer : request.Answer} {first second last : Deployment}
      (isAllowed : allowed request)
      (ran : (Operation.askMarket request).runOn first = (.ok answer, second))
      (rest : Answered allowed second last) : Answered allowed first last
  | count {first last : Deployment} (counters : Counters)
      (rest : Answered allowed { first with counters } last) : Answered allowed first last

/-- A request has failed behind others that were answered, and it was the last
one to be made. -/
def FailsAt (allowed : MarketRequest → Prop) (request : MarketRequest) (failure : Failure)
    (before after : Deployment) : Prop :=
  ∃ middle, Answered allowed before middle ∧
    (Operation.askMarket request).runOn middle = (.error failure, after)

namespace Answered

variable {allowed wider : MarketRequest → Prop} {first second third : Deployment}

theorem trans (early : Answered allowed first second) (late : Answered allowed second third) :
    Answered allowed first third := by
  induction early with
  | nothing deployment => exact late
  | ask isAllowed ran rest ih => exact .ask isAllowed ran (ih late)
  | count counters rest ih => exact .count counters (ih late)

theorem imp (answered : Answered allowed first second)
    (implies : ∀ request, allowed request → wider request) : Answered wider first second := by
  induction answered with
  | nothing deployment => exact .nothing deployment
  | ask isAllowed ran rest ih => exact .ask (implies _ isAllowed) ran ih
  | count counters rest ih => exact .count counters ih

theorem outages_eq_nil (answered : Answered allowed first second) (clear : first.outages = []) :
    second.outages = [] := by
  induction answered with
  | nothing deployment => exact clear
  | ask isAllowed ran rest ih =>
      apply ih
      rw [Operation.eq_of_runOn_askMarket ran]
      exact outages_afterRequest_of_no_outages clear _
  | count counters rest ih => exact ih clear

/-- No request changes the transactions. -/
theorem transactions_eq (answered : Answered allowed first second) :
    second.market.transactions = first.market.transactions := by
  induction answered with
  | nothing deployment => rfl
  | @ask request answer _ _ _ isAllowed ran rest ih =>
      rw [ih, Operation.eq_of_runOn_askMarket ran]
      cases request with
      | _ => rfl
  | count counters rest ih => exact ih

end Answered

namespace FailsAt

variable {allowed wider : MarketRequest → Prop} {request : MarketRequest} {failure : Failure}
variable {before middle after : Deployment}

theorem behind (early : Answered allowed before middle)
    (fails : FailsAt allowed request failure middle after) :
    FailsAt allowed request failure before after := by
  obtain ⟨last, answered, failed⟩ := fails
  exact ⟨last, early.trans answered, failed⟩

theorem imp (fails : FailsAt allowed request failure before after)
    (implies : ∀ request, allowed request → wider request) :
    FailsAt wider request failure before after := by
  obtain ⟨last, answered, failed⟩ := fails
  exact ⟨last, answered.imp implies, failed⟩

end FailsAt

end Deployment

namespace Operation

open Deployment

variable {α β : Type} {allowed : MarketRequest → Prop}

/-- An operation makes requests of one sort, and breaks off with the failure of
the first one that fails. -/
structure BreaksOff (allowed : MarketRequest → Prop) (operation : Operation α) : Prop where
  answered : ∀ {before after value}, operation.runOn before = (.ok value, after) →
    Answered allowed before after
  failed : ∀ {before after failure}, operation.runOn before = (.error failure, after) →
    ∃ request, allowed request ∧ FailsAt allowed request failure before after

namespace BreaksOff

theorem pure (value : α) : BreaksOff allowed (Pure.pure value) where
  answered := by
    intro before after result ran
    obtain ⟨-, rfl⟩ := Prod.mk.inj ran
    exact .nothing before
  failed := by
    intro before after failure ran
    exact nomatch (Prod.mk.inj ran).1

theorem askMarket {request : MarketRequest} (isAllowed : allowed request) :
    BreaksOff allowed (Operation.askMarket request) where
  answered ran := .ask isAllowed ran (.nothing _)
  failed ran := ⟨request, isAllowed, _, .nothing _, ran⟩

theorem count (increase : Counters → Counters) :
    BreaksOff allowed (Operation.count increase) where
  answered := by
    intro before after result ran
    obtain ⟨-, rfl⟩ := Prod.mk.inj ran
    exact .count _ (.nothing _)
  failed := by
    intro before after failure ran
    exact nomatch (Prod.mk.inj ran).1

theorem bind {first : Operation α} {second : α → Operation β} (early : BreaksOff allowed first)
    (late : ∀ value, BreaksOff allowed (second value)) : BreaksOff allowed (first >>= second) where
  answered := by
    intro before after result ran
    obtain ⟨value, middle, ranFirst, ranSecond⟩ := runOn_bind_eq_ok ran
    exact (early.answered ranFirst).trans ((late value).answered ranSecond)
  failed := by
    intro before after failure ran
    rcases outcome : first.runOn before with ⟨cause | value, middle⟩
    · rw [runOn_bind_of_error outcome] at ran
      obtain ⟨sameFailure, rfl⟩ := Prod.mk.inj ran
      cases sameFailure
      exact early.failed outcome
    · rw [runOn_bind_of_ok outcome] at ran
      obtain ⟨request, isAllowed, fails⟩ := (late value).failed ran
      exact ⟨request, isAllowed, fails.behind (early.answered outcome)⟩

end BreaksOff

end Operation

end MarketStats
