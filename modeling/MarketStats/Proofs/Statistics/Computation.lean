import MarketStats.Proofs.Operation
import MarketStats.Statistics.Computation

/-!
# Statistics are answers of the marketplace store

Statistics that were computed in spite of outages are the ones that the
marketplace store gives without any.  Nothing but the store and its bound on
the size of pages has a part in them.
-/

namespace MarketStats

namespace Deployment

def withoutOutages (deployment : Deployment) : Deployment :=
  { deployment with outages := [] }

/-- A deployment without outages has the marketplace store of another one. -/
structure ClearlyLike (first second : Deployment) : Prop where
  market : second.market = first.market
  pageCap : second.pageCap = first.pageCap
  clear : second.outages = []

theorem ClearlyLike.withoutOutages (deployment : Deployment) :
    ClearlyLike deployment deployment.withoutOutages where
  market := rfl
  pageCap := rfl
  clear := rfl

end Deployment

namespace Operation

open Deployment

variable {α β : Type}

/-- An operation that succeeds on a deployment gives the same answer on every
clear deployment with the same marketplace store. -/
def AnswersFromMarket (operation : Operation α) : Prop :=
  ∀ {first second after : Deployment} {answer : α},
    operation.runOn first = (.ok answer, after) → ClearlyLike first second →
      ∃ last, operation.runOn second = (.ok answer, last) ∧ ClearlyLike after last

namespace AnswersFromMarket

theorem pure (value : α) : AnswersFromMarket (Pure.pure value : Operation α) := by
  intro first second after answer ran alike
  obtain ⟨sameAnswer, rfl⟩ := Prod.mk.inj ran
  cases sameAnswer
  exact ⟨second, rfl, alike⟩

theorem bind {operation : Operation α} {next : α → Operation β}
    (answers : AnswersFromMarket operation)
    (answersNext : ∀ value, AnswersFromMarket (next value)) :
    AnswersFromMarket (operation >>= next) := by
  intro first second after answer ran alike
  obtain ⟨value, middle, ranFirst, ranNext⟩ := runOn_bind_eq_ok ran
  obtain ⟨middleLast, ranSecond, alikeMiddle⟩ := answers ranFirst alike
  obtain ⟨last, ranLast, alikeLast⟩ := answersNext value ranNext alikeMiddle
  exact ⟨last, (runOn_bind_of_ok ranSecond).trans ranLast, alikeLast⟩

theorem askMarket (request : MarketRequest) :
    AnswersFromMarket (Operation.askMarket request) := by
  intro first second after answer ran alike
  rcases runOn_askMarket_cases request first with ⟨failure, failed⟩ | ⟨value, answered, succeeded⟩
  · rw [failed] at ran
    cases ran
  · rw [succeeded] at ran
    obtain ⟨sameAnswer, rfl⟩ := Prod.mk.inj ran
    cases sameAnswer
    have ranSecond : (Operation.askMarket request).runOn second =
        (.ok answer,
          { second.afterRequest (.market request) with
            market := (first.market.perform first.pageCap request).2 }) := by
      rw [runOn_askMarket, isStruckBy_of_no_outages alike.clear, if_neg (by decide), alike.market,
        alike.pageCap, answered]
    refine ⟨_, ranSecond, ?_⟩
    exact
      { market := rfl
        pageCap := alike.pageCap
        clear := outages_afterRequest_of_no_outages alike.clear _ }

theorem readPages (collectionId : Int64) (limit bound offset : Nat) :
    AnswersFromMarket (Operation.readPages collectionId limit bound offset) := by
  induction bound generalizing offset with
  | zero => exact pure _
  | succ bound ih =>
      unfold Operation.readPages
      apply bind (askMarket _)
      intro tokens
      dsimp only
      split
      · exact pure _
      · exact bind (ih _) fun _ => pure _

theorem readTokens (collectionId : Int64) (batchSize : Nat) :
    AnswersFromMarket (Operation.readTokens collectionId batchSize) := by
  intro first second after answer ran alike
  unfold Operation.readTokens at *
  rw [runOn_bind_of_ok (runOn_get _)] at ran ⊢
  rw [alike.market]
  exact readPages _ _ _ _ ran alike

theorem computeStatistics (collectionId : Int64) (batchSize : Nat) :
    AnswersFromMarket (Operation.computeStatistics collectionId batchSize) := by
  unfold Operation.computeStatistics
  refine bind (askMarket _) fun _ => bind (askMarket _) fun _ => bind ?_ fun _ => pure _
  exact bind (readTokens _ _) fun _ => pure _

end AnswersFromMarket

/-- Without outages the store answers a request, which only leaves a trace in the
journal if it changes nothing in the store. -/
theorem runOn_askMarket_of_clear {deployment : Deployment} (clear : deployment.outages = [])
    {request : MarketRequest} {answer : request.Answer}
    (answered : deployment.market.perform deployment.pageCap request =
      (.ok answer, deployment.market)) :
    (Operation.askMarket request).runOn deployment =
      (.ok answer, deployment.afterRequest (.market request)) := by
  rw [runOn_askMarket, if_neg (Bool.eq_false_iff.mp (isStruckBy_of_no_outages clear _)), answered]
  rfl

/-- Without outages whoever asks the shared tier is given its answer. -/
theorem exists_runOn_askShared {deployment : Deployment} (clear : deployment.outages = [])
    (request : SharedRequest) {answer : request.Answer}
    (answered : (deployment.shared.perform deployment.now request).1 = .ok answer) :
    ∃ after, (askShared request).runOn deployment = (.ok answer, after) ∧
      after.outages = [] := by
  rw [runOn_askShared, if_neg (Bool.eq_false_iff.mp (isStruckBy_of_no_outages clear _)), answered]
  exact ⟨_, rfl, outages_afterRequest_of_no_outages clear _⟩

theorem exists_runOn_readPages {deployment : Deployment} (clear : deployment.outages = [])
    (collectionId : Int64) (limit bound offset : Nat) :
    ∃ pages last,
      (readPages collectionId limit bound offset).runOn deployment = (.ok pages, last) := by
  induction bound generalizing deployment offset with
  | zero => exact ⟨[], deployment, rfl⟩
  | succ bound ih =>
      have answered : (askMarket (.page collectionId offset limit)).runOn deployment = _ :=
        runOn_askMarket_of_clear clear rfl
      unfold readPages
      rw [runOn_bind_of_ok answered]
      dsimp only
      split
      · exact ⟨_, _, rfl⟩
      · obtain ⟨later, last, ran⟩ := ih (outages_afterRequest_of_no_outages clear _) (offset + _)
        exact ⟨_, last, runOn_bind_of_ok ran⟩

/-- Without outages there are statistics as soon as the prices that were paid
have a sum, and the sum is the volume traded. -/
theorem exists_runOn_computeStatistics {deployment : Deployment}
    (clear : deployment.outages = []) {collectionId : Int64} {volume : Decimal}
    (summed : deployment.market.buyVolume? collectionId = some volume) (batchSize : Nat) :
    ∃ statistics last,
      (computeStatistics collectionId batchSize).runOn deployment = (.ok statistics, last) ∧
        statistics.volumeTraded = volume := by
  have priceAnswered : (askMarket (.leastBuyPrice collectionId)).runOn deployment = _ :=
    runOn_askMarket_of_clear clear rfl
  have behindPrice := outages_afterRequest_of_no_outages clear
    (.market (.leastBuyPrice collectionId))
  have sumFound : deployment.market.perform deployment.pageCap (.buyVolume collectionId) =
      (.ok volume, deployment.market) := by
    rw [Marketplace.perform, summed]
    rfl
  have volumeAnswered := runOn_askMarket_of_clear behindPrice sumFound
  obtain ⟨pages, last, pagesRead⟩ := exists_runOn_readPages
    (outages_afterRequest_of_no_outages behindPrice (.market (.buyVolume collectionId)))
    collectionId (pageLimit batchSize) ((deployment.market.tokensOf collectionId).length + 1) 0
  have tokensRead : (readTokens collectionId batchSize).runOn
      ((deployment.afterRequest (.market (.leastBuyPrice collectionId))).afterRequest
        (.market (.buyVolume collectionId))) = (.ok pages, last) :=
    (runOn_bind_of_ok (runOn_get _)).trans pagesRead
  have censusTaken : (takeCensus collectionId batchSize).runOn
      ((deployment.afterRequest (.market (.leastBuyPrice collectionId))).afterRequest
        (.market (.buyVolume collectionId))) =
      (.ok (Census.ofTokens (pages.flatMap TokenPage.tokens), pages), last) :=
    runOn_bind_of_ok tokensRead
  unfold computeStatistics
  rw [runOn_bind_of_ok priceAnswered, runOn_bind_of_ok volumeAnswered,
    runOn_bind_of_ok censusTaken]
  exact ⟨_, last, rfl, rfl⟩

end Operation

end MarketStats
