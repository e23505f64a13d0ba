import MarketStats.Proofs.Decimal.Order
import MarketStats.Proofs.Deployment.BreakingOff
import MarketStats.Proofs.Statistics.Census
import MarketStats.Proofs.Statistics.Computation
import MarketStats.Proofs.Store.Rows

/-!
# Statistics by definition

However its tokens are split into pages, the statistics of a collection are
those of all of its tokens and purchases.  The pages are read up to one without
tokens, which comes behind as many pages as there are tokens at the latest.
-/

namespace MarketStats

/-- Statistics describe the tokens and purchases of a collection.  Of purchases
at the same least price the first one gives the floor price. -/
structure CollectionStatistics.Describe (statistics : CollectionStatistics) (market : Marketplace)
    (collectionId : Int64) : Prop where
  items : statistics.itemsTotal = UInt64.ofNat (market.tokensOf collectionId).length
  owners : statistics.ownersTotal =
    UInt64.ofNat ((market.tokensOf collectionId).map Token.ownerId).dedup.length
  unsold : (∀ sale ∈ market.transactions, ¬sale.IsPurchaseOf collectionId) →
    statistics.floorPrice = .zero
  floorPrice : (∃ sale ∈ market.transactions, sale.IsPurchaseOf collectionId) →
    ∃ earlier sale later, market.transactions = earlier ++ sale :: later ∧
      sale.IsPurchaseOf collectionId ∧ statistics.floorPrice = sale.price ∧
      (∀ other ∈ earlier, other.IsPurchaseOf collectionId →
        sale.price.units < other.price.units) ∧
      ∀ other ∈ later, other.IsPurchaseOf collectionId → sale.price.units ≤ other.price.units
  volume : Decimal.sum? ((market.purchases collectionId).map Transaction.price) =
    some statistics.volumeTraded
  exactVolume : Decimal.HasAmountSums ((market.purchases collectionId).map Transaction.price) →
    statistics.volumeTraded.units =
      Decimal.sumUnits ((market.purchases collectionId).map Transaction.price)
  increasing : statistics.attributes.Pairwise AttributeCount.Precedes
  counts : ∀ counted, counted ∈ statistics.attributes ↔
    (∃ token ∈ market.tokensOf collectionId,
        token.carries counted.traitName counted.value = true) ∧
      counted.count = UInt64.ofNat ((market.tokensOf collectionId).countP fun token =>
        token.carries counted.traitName counted.value)

/-- The requests from which the statistics of a collection are computed. -/
def MarketRequest.IsForStatistics (collectionId : Int64) (limit : Nat) (request : MarketRequest) :
    Prop :=
  request = .leastBuyPrice collectionId ∨ request = .buyVolume collectionId ∨
    ∃ offset, request = .page collectionId offset limit

theorem Marketplace.amount_eq_ok_iff {found : Option Decimal} {value : Decimal} :
    amount found = .ok value ↔ found = some value := by
  cases found with
  | none => exact ⟨nofun, nofun⟩
  | some sum => rw [amount, Except.ok.injEq, Option.some.injEq]

namespace Operation

open Deployment

variable {collectionId : Int64} {limit bound offset batchSize : Nat}
variable {before after : Deployment}

theorem BreaksOff.get {allowed : MarketRequest → Prop} : BreaksOff allowed get where
  answered := by
    intro before after result ran
    obtain ⟨-, rfl⟩ := Prod.mk.inj ran
    exact .nothing before
  failed := by
    intro before after failure ran
    exact nomatch (Prod.mk.inj ran).1

theorem breaksOff_readPages (collectionId : Int64) (limit bound offset : Nat) :
    BreaksOff (MarketRequest.IsForStatistics collectionId limit)
      (readPages collectionId limit bound offset) := by
  induction bound generalizing offset with
  | zero => exact .pure _
  | succ bound ih =>
      unfold readPages
      refine .bind (.askMarket (.inr (.inr ⟨offset, rfl⟩))) fun tokens => ?_
      dsimp only
      split
      · exact .pure _
      · exact .bind (ih _) fun later => .pure _

theorem breaksOff_computeStatistics (collectionId : Int64) (batchSize : Nat) :
    BreaksOff (MarketRequest.IsForStatistics collectionId (pageLimit batchSize))
      (computeStatistics collectionId batchSize) := by
  refine .bind (.askMarket (.inl rfl)) fun leastPrice =>
    .bind (.askMarket (.inr (.inl rfl))) fun volumeTraded => .bind ?_ fun census => .pure _
  exact .bind (.bind .get fun deployment => breaksOff_readPages ..) fun pages => .pure _

/-- No request from which statistics are computed changes the store. -/
theorem answered_isForStatistics
    (answered : Answered (MarketRequest.IsForStatistics collectionId limit) before after) :
    after.market = before.market ∧ after.pageCap = before.pageCap := by
  induction answered with
  | nothing deployment => exact ⟨rfl, rfl⟩
  | ask isAllowed ran rest ih =>
      rw [eq_of_runOn_askMarket ran] at ih
      rcases isAllowed with rfl | rfl | ⟨offset, rfl⟩
      · exact ih
      · exact ih
      · exact ih
  | count counters rest ih => exact ih

/-- The tokens behind an offset are those of a page and what follows it. -/
theorem drop_tokensOf_eq_page_append (market : Marketplace) (collectionId : Int64)
    (offset size : Nat) :
    (market.tokensOf collectionId).drop offset =
      market.page collectionId offset size ++
        (market.tokensOf collectionId).drop
          (offset + (market.page collectionId offset size).length) := by
  rw [Marketplace.page, ← List.drop_drop, List.length_take]
  rcases Nat.le_total size ((market.tokensOf collectionId).drop offset).length with fits | short
  · rw [Nat.min_eq_left fits, List.take_append_drop]
  · rw [Nat.min_eq_right short, List.drop_length, List.append_nil, List.take_of_length_le short]

theorem length_drop_tokensOf_lt {market : Marketplace} {size : Nat}
    (someTokens : market.page collectionId offset size ≠ []) :
    ((market.tokensOf collectionId).drop
        (offset + (market.page collectionId offset size).length)).length <
      ((market.tokensOf collectionId).drop offset).length := by
  have split := congrArg List.length
    (drop_tokensOf_eq_page_append market collectionId offset size)
  have positive := List.length_pos_iff.mpr someTokens
  rw [List.length_append] at split
  omega

/-- The next page cannot be read, or it has no tokens and is the last one, or
reading goes on behind its tokens.  The bound has no part in this. -/
theorem readPages_succ_cases (collectionId : Int64) (limit offset : Nat) (before : Deployment) :
    let tokens := before.market.page collectionId offset
      (Marketplace.pageSize before.pageCap limit)
    let middle := before.afterRequest (.market (.page collectionId offset limit))
    (∃ failure, ∀ bound, (readPages collectionId limit (bound + 1) offset).runOn before =
        (.error failure, middle)) ∨
      (tokens = [] ∧ ∀ bound, (readPages collectionId limit (bound + 1) offset).runOn before =
        (.ok [TokenPage.mk offset limit []], middle)) ∨
      tokens ≠ [] ∧ ∀ bound, (readPages collectionId limit (bound + 1) offset).runOn before =
        (readPages collectionId limit bound (offset + tokens.length) >>= fun later =>
          pure (TokenPage.mk offset limit tokens :: later)).runOn middle := by
  intro tokens middle
  rcases runOn_askMarket_cases (.page collectionId offset limit) before with
    ⟨failure, failed⟩ | ⟨answer, answered, asked⟩
  · refine .inl ⟨failure, fun bound => ?_⟩
    rw [readPages]
    exact runOn_bind_of_error failed
  cases answered
  have goesOn : ∀ bound, (readPages collectionId limit (bound + 1) offset).runOn before =
      (if tokens.isEmpty then pure [TokenPage.mk offset limit tokens]
        else readPages collectionId limit bound (offset + tokens.length) >>= fun later =>
          pure (TokenPage.mk offset limit tokens :: later) : Operation (List TokenPage)).runOn
        middle := by
    intro bound
    rw [readPages]
    exact runOn_bind_of_ok asked
  by_cases noTokens : tokens = []
  · refine .inr (.inl ⟨noTokens, fun bound => ?_⟩)
    rw [goesOn, noTokens]
    rfl
  · refine .inr (.inr ⟨noTokens, fun bound => ?_⟩)
    rw [goesOn, if_neg fun isEmpty => noTokens (List.isEmpty_iff.mp isEmpty)]

/-- The pages that are read from an offset on, together, are the tokens behind
it. -/
theorem tokens_of_readPages {pages : List TokenPage}
    (positive : 0 < Marketplace.pageSize before.pageCap limit)
    (enough : ((before.market.tokensOf collectionId).drop offset).length < bound)
    (ran : (readPages collectionId limit bound offset).runOn before = (.ok pages, after)) :
    pages.flatMap TokenPage.tokens = (before.market.tokensOf collectionId).drop offset := by
  induction bound generalizing offset before after pages with
  | zero => exact absurd enough (Nat.not_lt_zero _)
  | succ bound ih =>
      have split := drop_tokensOf_eq_page_append before.market collectionId offset
        (Marketplace.pageSize before.pageCap limit)
      rcases readPages_succ_cases collectionId limit offset before with
        ⟨failure, failed⟩ | ⟨noTokens, ends⟩ | ⟨someTokens, goesOn⟩
      · rw [failed] at ran
        exact nomatch (Prod.mk.inj ran).1
      · rw [ends] at ran
        obtain ⟨⟨⟩, -⟩ := Prod.mk.inj ran
        rcases List.take_eq_nil_iff.mp noTokens with isZero | nothing
        · exact absurd isZero (Nat.ne_of_gt positive)
        · exact nothing.symm
      · rw [goesOn] at ran
        obtain ⟨later, last, ranLater, ranEnd⟩ := runOn_bind_eq_ok ran
        obtain ⟨⟨⟩, -⟩ := Prod.mk.inj ranEnd
        have shorter := length_drop_tokensOf_lt someTokens
        -- Asking for a page changes neither the store nor its bound.
        have rest := ih (by exact positive)
          (by exact Nat.lt_of_lt_of_le shorter (Nat.le_of_lt_succ enough)) ranLater
        rw [List.flatMap_cons, rest]
        exact split.symm

/-- A larger bound makes no difference, so the pages end by themselves. -/
theorem runOn_readPages_of_le {larger : Nat}
    (positive : 0 < Marketplace.pageSize before.pageCap limit)
    (enough : ((before.market.tokensOf collectionId).drop offset).length < bound)
    (atLeast : bound ≤ larger) :
    (readPages collectionId limit larger offset).runOn before =
      (readPages collectionId limit bound offset).runOn before := by
  induction bound generalizing larger offset before with
  | zero => exact absurd enough (Nat.not_lt_zero _)
  | succ bound ih =>
      obtain ⟨larger, rfl⟩ : ∃ smaller, larger = smaller + 1 :=
        Nat.exists_eq_add_of_le' (Nat.le_trans (Nat.succ_pos bound) atLeast)
      rcases readPages_succ_cases collectionId limit offset before with
        ⟨failure, failed⟩ | ⟨noTokens, ends⟩ | ⟨someTokens, goesOn⟩
      · rw [failed, failed]
      · rw [ends, ends]
      · have shorter := length_drop_tokensOf_lt someTokens
        rw [goesOn, goesOn, runOn_bind, runOn_bind, ih ?_ ?_ (Nat.le_of_succ_le_succ atLeast)]
        · exact positive
        · exact Nat.lt_of_lt_of_le shorter (Nat.le_of_lt_succ enough)

theorem pageSize_pos (capped : before.pageCap ≠ some 0) (batchSize : Nat) :
    0 < Marketplace.pageSize before.pageCap (pageLimit batchSize) := by
  have limitPositive : 0 < pageLimit batchSize := Nat.le_max_right batchSize 1
  cases bounded : before.pageCap with
  | none => exact limitPositive
  | some cap =>
      refine Nat.lt_min.mpr ⟨limitPositive, Nat.pos_of_ne_zero ?_⟩
      rintro rfl
      exact capped bounded

/-- What becomes of the requests for the prices and for the pages when
statistics are computed. -/
theorem exists_of_runOn_computeStatistics {statistics : CollectionStatistics}
    (ran : (computeStatistics collectionId batchSize).runOn before = (.ok statistics, after)) :
    ∃ volume pages middle,
      before.market.buyVolume? collectionId = some volume ∧
        middle.market = before.market ∧ middle.pageCap = before.pageCap ∧
        (readTokens collectionId batchSize).runOn middle = (.ok pages, after) ∧
        statistics =
          { itemsTotal := UInt64.ofNat (Census.ofTokens (pages.flatMap TokenPage.tokens)).itemCount
            ownersTotal :=
              UInt64.ofNat (Census.ofTokens (pages.flatMap TokenPage.tokens)).owners.size
            floorPrice := (before.market.leastBuyPrice? collectionId).getD .zero
            volumeTraded := volume
            attributes := (Census.ofTokens (pages.flatMap TokenPage.tokens)).attributes } := by
  obtain ⟨leastPrice, priced, askedPrice, ranRest⟩ := runOn_bind_eq_ok ran
  obtain ⟨volume, summed, askedVolume, ranCensus⟩ := runOn_bind_eq_ok ranRest
  obtain ⟨⟨census, pages⟩, counted, tookCensus, ended⟩ := runOn_bind_eq_ok ranCensus
  obtain ⟨read, last, readPages, taken⟩ := runOn_bind_eq_ok tookCensus
  have isLeast := perform_eq_of_runOn_askMarket askedPrice
  have isSum := perform_eq_of_runOn_askMarket askedVolume
  have answeredPrice : Answered (MarketRequest.IsForStatistics collectionId 0) before priced :=
    .ask (.inl rfl) askedPrice (.nothing _)
  have answeredVolume : Answered (MarketRequest.IsForStatistics collectionId 0) priced summed :=
    .ask (.inr (.inl rfl)) askedVolume (.nothing _)
  obtain ⟨sameMarket, sameCap⟩ := answered_isForStatistics answeredPrice
  obtain ⟨stillSameMarket, stillSameCap⟩ := answered_isForStatistics answeredVolume
  obtain ⟨⟨⟩, rfl⟩ := Prod.mk.inj taken
  obtain ⟨⟨⟩, rfl⟩ := Prod.mk.inj ended
  cases isLeast
  refine ⟨volume, pages, summed, ?_, stillSameMarket.trans sameMarket,
    stillSameCap.trans sameCap, readPages, rfl⟩
  rw [sameMarket] at isSum
  exact Marketplace.amount_eq_ok_iff.mp isSum

/-- Statistics that were computed describe the collection. -/
theorem describe_of_runOn_computeStatistics {statistics : CollectionStatistics}
    (capped : before.pageCap ≠ some 0)
    (ran : (computeStatistics collectionId batchSize).runOn before = (.ok statistics, after)) :
    statistics.Describe before.market collectionId := by
  obtain ⟨volume, pages, middle, summed, sameMarket, sameCap, readAll, rfl⟩ :=
    exists_of_runOn_computeStatistics ran
  have all : pages.flatMap TokenPage.tokens = before.market.tokensOf collectionId := by
    have positive := pageSize_pos capped batchSize
    rw [← sameCap] at positive
    unfold readTokens at readAll
    rw [runOn_bind_of_ok (runOn_get middle)] at readAll
    rw [tokens_of_readPages positive (Nat.lt_succ_self _) readAll, sameMarket]
    rfl
  have isSum : Decimal.sum? ((before.market.purchases collectionId).map Transaction.price) =
      some volume := by
    rw [← Marketplace.buyPrices_eq_map]
    exact summed
  rw [all]
  constructor
  case items => rw [Census.itemCount_ofTokens]
  case owners => rw [Census.size_owners_ofTokens]
  case unsold =>
    intro noSales
    have noPrices : before.market.buyPrices collectionId = [] := by
      rw [Marketplace.buyPrices_eq_map, List.map_eq_nil_iff, List.eq_nil_iff_forall_not_mem]
      intro sale purchased
      obtain ⟨recorded, isPurchase⟩ := Marketplace.mem_purchases.mp purchased
      exact noSales sale recorded isPurchase
    rw [Marketplace.leastBuyPrice?, noPrices]
    rfl
  case floorPrice =>
    rintro ⟨sale, recorded, isPurchase⟩
    have sold : before.market.buyPrices collectionId ≠ [] := by
      rw [Marketplace.buyPrices_eq_map]
      exact List.ne_nil_of_mem
        (List.mem_map_of_mem (Marketplace.mem_purchases.mpr ⟨recorded, isPurchase⟩))
    cases least : before.market.leastBuyPrice? collectionId with
    | none => exact absurd (Decimal.least?_eq_none_iff.mp least) sold
    | some price =>
        have isLeast := Decimal.isEarliestLeast_of_least? least
        rw [Marketplace.buyPrices_eq_map] at isLeast
        obtain ⟨earlier, cheapest, later, split, kept, rfl, larger, noSmaller⟩ :=
          isLeast.exists_of_filter
        simp only [decide_eq_true_eq] at kept larger noSmaller
        exact ⟨earlier, cheapest, later, split, kept, rfl, larger, noSmaller⟩
  case volume => exact isSum
  case exactVolume =>
    intro amountSums
    obtain ⟨total, isTotal, value⟩ := amountSums.exists_sum?_eq
    cases isSum.symm.trans isTotal
    exact value
  case increasing => exact Census.pairwise_attributes _
  case counts => exact fun counted => Census.mem_attributes_ofTokens

/-- A request for statistics fails because it meets an outage, or because the
prices that were paid have no sum. -/
theorem failure_of_failsAt {request : MarketRequest} {failure : Failure}
    (isAllowed : request.IsForStatistics collectionId limit)
    (fails : FailsAt (MarketRequest.IsForStatistics collectionId limit) request failure before
      after) :
    failure = .error (Request.market request).endpoint.outageError ∨
      request = .buyVolume collectionId ∧
        Decimal.sum? ((before.market.purchases collectionId).map Transaction.price) = none ∧
        failure = .amountOverflow := by
  rw [← Marketplace.buyPrices_eq_map]
  change _ ∨ _ ∧ before.market.buyVolume? collectionId = none ∧ _
  obtain ⟨middle, answered, failed⟩ := fails
  obtain ⟨sameMarket, -⟩ := answered_isForStatistics answered
  rw [runOn_askMarket, sameMarket] at failed
  split at failed
  · obtain ⟨⟨⟩, -⟩ := Prod.mk.inj failed
    exact .inl rfl
  · have performed := (Prod.mk.inj failed).1
    rcases isAllowed with rfl | rfl | ⟨offset, rfl⟩
    · cases performed
    · cases summed : before.market.buyVolume? collectionId with
      | none =>
          rw [Marketplace.perform, summed] at performed
          cases performed
          exact .inr ⟨rfl, rfl, rfl⟩
      | some volume =>
          rw [Marketplace.perform, summed] at performed
          cases performed
    · cases performed

/-- However many tokens are asked for at a time and however few of them come, the
pages end by themselves and the statistics describe the collection, unless a
request fails.  Then the failure of this request becomes that of the whole
computation, and it was the last request. -/
theorem computeStatistics_describe (capped : before.pageCap ≠ some 0)
    {outcome : Except Failure CollectionStatistics}
    (ran : (computeStatistics collectionId batchSize).runOn before = (outcome, after)) :
    (∀ statistics, outcome = .ok statistics →
      statistics.Describe before.market collectionId ∧
        Answered (MarketRequest.IsForStatistics collectionId (pageLimit batchSize)) before
          after) ∧
    (∀ failure, outcome = .error failure → ∃ request,
      request.IsForStatistics collectionId (pageLimit batchSize) ∧
        FailsAt (MarketRequest.IsForStatistics collectionId (pageLimit batchSize)) request failure
          before after ∧
        (failure = .error (Request.market request).endpoint.outageError ∨
          request = .buyVolume collectionId ∧
            Decimal.sum? ((before.market.purchases collectionId).map Transaction.price) = none ∧
            failure = .amountOverflow)) ∧
    (before.outages = [] →
      (Decimal.sum? ((before.market.purchases collectionId).map Transaction.price)).isSome = true →
        outcome.isOk = true) ∧
    ∀ deployment bound, deployment.market = before.market →
      deployment.pageCap = before.pageCap → (before.market.tokensOf collectionId).length < bound →
        (readPages collectionId (pageLimit batchSize) bound 0).runOn deployment =
          (readTokens collectionId batchSize).runOn deployment := by
  have breaksOff := breaksOff_computeStatistics collectionId batchSize
  refine ⟨?_, ?_, ?_, ?_⟩
  · rintro statistics rfl
    exact ⟨describe_of_runOn_computeStatistics capped ran, breaksOff.answered ran⟩
  · rintro failure rfl
    obtain ⟨request, isAllowed, fails⟩ := breaksOff.failed ran
    exact ⟨request, isAllowed, fails, failure_of_failsAt isAllowed fails⟩
  · intro clear hasSum
    rw [← Marketplace.buyPrices_eq_map] at hasSum
    obtain ⟨volume, summed⟩ := Option.isSome_iff_exists.mp hasSum
    obtain ⟨statistics, last, succeeds, -⟩ :=
      exists_runOn_computeStatistics clear summed batchSize
    rw [ran] at succeeds
    rw [(Prod.mk.inj succeeds).1]
    rfl
  · intro deployment bound sameMarket sameCap enough
    have positive := pageSize_pos capped batchSize
    rw [← sameCap] at positive
    rw [← sameMarket] at enough
    rw [readTokens, runOn_bind_of_ok (runOn_get deployment)]
    exact runOn_readPages_of_le positive (Nat.lt_succ_self _) enough

/-- A transaction at a price with some digits, of which so many stand behind the
point. -/
def pricedAt (collectionId : Int64) (kind : TransactionKind) (digits scale : Nat) : Transaction :=
  { collectionId
    kind
    price := (Decimal.ofParts? false digits scale).getD .zero
    timestamp := .startOf2024 }

/-- A collection of two tokens, one of them without readable attributes, in a
store that gives one token at a time.  Two of its three purchases are at the
least price, which is written in two ways; a listing of the collection and a
purchase of another one are cheaper. -/
def withUnreadableToken : Deployment :=
  { Deployment.empty 0 0 0 0 (some 1) with
    market :=
      (({ Marketplace.empty with
          transactions :=
            [pricedAt 7 .list 1 0, pricedAt 7 .buy 3 0, pricedAt 7 .buy 250 2,
              pricedAt 7 .buy 25 1, pricedAt 8 .buy 5 1] } : Marketplace).addToken 7
        { ownerId := 1, attributes := "\x7b\"Hat\":\"Red\",\"Hat\":\"Blue\"\x7d" }).addToken 7
        { ownerId := 1, attributes := "[]" } }

theorem computeStatistics_describe_withUnreadableToken :
    ∃ statistics after,
      (computeStatistics 7 0).runOn withUnreadableToken = (.ok statistics, after) ∧
        statistics.Describe withUnreadableToken.market 7 ∧
        statistics.itemsTotal = 2 ∧ statistics.ownersTotal = 1 ∧
        statistics.floorPrice.toText = "2.50" ∧ statistics.volumeTraded.toText = "8.00" ∧
        statistics.attributes = [{ traitName := "Hat", value := "Blue", count := 1 }] := by
  have computed : ((computeStatistics 7 0).runOn withUnreadableToken).1.toOption =
      some
        { itemsTotal := 2
          ownersTotal := 1
          floorPrice := (pricedAt 7 .buy 250 2).price
          volumeTraded := (pricedAt 7 .buy 800 2).price
          attributes := [{ traitName := "Hat", value := "Blue", count := 1 }] } := by
    decide +kernel
  rcases ran : (computeStatistics 7 0).runOn withUnreadableToken with ⟨failure | statistics, after⟩
  · rw [ran] at computed
    exact nomatch computed
  rw [ran] at computed
  obtain rfl := Option.some.inj computed
  obtain ⟨succeeded, -, -, -⟩ := computeStatistics_describe (by decide) ran
  exact ⟨_, after, rfl, (succeeded _ rfl).1, rfl, rfl, by decide +kernel, by decide +kernel, rfl⟩

end Operation

end MarketStats
