import MarketStats.Proofs.Aggregation.Totals

/-!
# The marketplace is the sum of its collections

A pass that is asked to walks over the marketplace and over every collection
that has a token or a transaction.  In the hours that all of these walks reach,
every transaction counts once for the marketplace and once for its collection.
The row of the marketplace therefore holds the sum of the rows of the
collections.
-/

namespace MarketStats

namespace Marketplace

/-- No sum of the prices of one kind in an hour is rounded, neither that of the
marketplace nor that of any collection. -/
structure AddsByCollection (market : Marketplace) (hour : HourBucket) (kind : TransactionKind) :
    Prop where
  all : Decimal.HasAmountSums (market.pricesInRange .global hour.start hour.endInstant kind)
  each : ∀ collectionId ∈ market.collectionIds, Decimal.HasAmountSums
    (market.pricesInRange (.collection collectionId) hour.start hour.endInstant kind)

/-- The prices of a range, taken collection by collection, are all prices of the
range. -/
theorem sumUnits_pricesInRange_collections (market : Marketplace)
    (start finish : Calendar.Instant) (kind : TransactionKind) :
    (market.collectionIds.map fun collectionId =>
        Decimal.sumUnits (market.pricesInRange (.collection collectionId) start finish kind)).sum =
      Decimal.sumUnits (market.pricesInRange .global start finish kind) := by
  let inRange := market.transactions.filter fun transaction =>
    VolumeScope.global.covers transaction && transaction.kind == kind
      && decide (start ≤ transaction.timestamp) && decide (transaction.timestamp < finish)
  have ofCollection (collectionId : Int64) :
      market.pricesInRange (.collection collectionId) start finish kind =
        (inRange.filter fun transaction =>
          decide (transaction.collectionId = collectionId)).map Transaction.price := by
    rw [pricesInRange, List.filter_filter]
    congr 2
    funext transaction
    rw [VolumeScope.covers, VolumeScope.covers, Bool.true_and, Bool.and_assoc, Bool.and_assoc,
      Bool.and_assoc]
    rfl
  have covered : ∀ transaction ∈ inRange, transaction.collectionId ∈ market.collectionIds :=
    fun transaction listed => (mem_collectionIds market _).mpr
      (.inr ⟨transaction, (List.mem_filter.mp listed).1, rfl⟩)
  have ofAll : market.pricesInRange .global start finish kind = inRange.map Transaction.price := rfl
  simp only [ofCollection, ofAll, Decimal.sumUnits, List.map_map]
  exact sum_groups _ Transaction.collectionId market.nodup_collectionIds covered

/-- A row that is up to date holds the prices of its hour if they add up without
rounding. -/
theorem IsUpToDate.exists_units_eq {market : Marketplace} {scope : VolumeScope} {hour : HourBucket}
    (upToDate : market.IsUpToDate scope hour) :
    ∃ row, market.row? scope hour = some row ∧ ∀ kind,
      Decimal.HasAmountSums (market.pricesInRange scope hour.start hour.endInstant kind) →
        (row.volume kind).units =
          Decimal.sumUnits (market.pricesInRange scope hour.start hour.endInstant kind) := by
  obtain ⟨row, found, rfl, rfl, sums⟩ := upToDate
  refine ⟨row, found, fun kind adds => ?_⟩
  obtain ⟨total, summed, exactly⟩ := adds.exists_sum?_eq
  have stored := sumsUp_iff.mp sums kind
  rw [volumeInRange?, summed] at stored
  rw [← Option.some.inj stored, exactly]

end Marketplace

namespace Operation

open Marketplace

variable {settings : AggregationSettings} {now : Calendar.Instant} {before after : Deployment}
variable {summary : PassSummary}

/-- A pass over all collections reports their number and one more for the
marketplace. -/
theorem scopes_of_runPass (perCollection : settings.perCollection = true)
    (ran : (runPass settings .never now).runOn before = (.ok summary, after)) :
    summary.scopes = 1 + before.market.collectionIds.length := by
  rw [length_scopes_of_runPass ran, AggregationSettings.scopes,
    AggregationSettings.collectionScopes, if_pos perCollection, List.length_cons, List.length_map,
    Nat.add_comm]

/-- A pass over all collections counts one scope for each of them and one for
the marketplace.  In every hour of the recent window the marketplace and each
collection have a row, and the volumes of the collections add up to that of the
marketplace unless a sum was rounded. -/
theorem collectionVolumes_add_up_to_globalVolume (perCollection : settings.perCollection = true)
    (ran : (runPass settings .never now).runOn before = (.ok summary, after)) :
    summary.scopes = 1 + after.market.collectionIds.length ∧
      ∀ hour : HourBucket, settings.floor ≤ hour → hour ≤ HourBucket.containing now →
        (HourBucket.containing now).index < hour.index + settings.recentWindowHours →
        ∃ (globalRow : HourlyVolume) (rowOf : Int64 → HourlyVolume),
          after.market.row? .global hour = some globalRow ∧
          (∀ collectionId ∈ after.market.collectionIds,
            after.market.row? (.collection collectionId) hour = some (rowOf collectionId)) ∧
          ∀ kind, after.market.AddsByCollection hour kind →
            Decimal.sumUnits (after.market.collectionIds.map fun collectionId =>
                (rowOf collectionId).volume kind) = (globalRow.volume kind).units ∧
            (Decimal.HasAmountSums (after.market.collectionIds.map fun collectionId =>
                (rowOf collectionId).volume kind) →
              ∃ total, Decimal.sum? (after.market.collectionIds.map fun collectionId =>
                  (rowOf collectionId).volume kind) = some total ∧
                total.units = (globalRow.volume kind).units) := by
  obtain ⟨written, passes⟩ := exists_passes_of_runPass ran
  have sameIds : after.market.collectionIds = before.market.collectionIds :=
    collectionIds_eq passes.transactions passes.tokens
  refine ⟨by rw [sameIds]; exact scopes_of_runPass perCollection ran, ?_⟩
  intro hour notBefore notAfter recent
  obtain ⟨globalRow, globalFound, globalUnits⟩ :=
    (passes.isUpToDate_of_recent List.mem_cons_self notBefore notAfter recent).exists_units_eq
  have ofCollection : ∀ collectionId, ∃ row, collectionId ∈ after.market.collectionIds →
      after.market.row? (.collection collectionId) hour = some row ∧ ∀ kind,
        Decimal.HasAmountSums (after.market.pricesInRange (.collection collectionId) hour.start
          hour.endInstant kind) →
        (row.volume kind).units = Decimal.sumUnits (after.market.pricesInRange
          (.collection collectionId) hour.start hour.endInstant kind) := by
    intro collectionId
    by_cases listed : collectionId ∈ after.market.collectionIds
    · have wanted : VolumeScope.collection collectionId ∈ settings.scopes before.market := by
        rw [AggregationSettings.scopes, AggregationSettings.collectionScopes,
          if_pos perCollection, ← sameIds]
        exact List.mem_cons_of_mem _ (List.mem_map_of_mem listed)
      obtain ⟨row, isRow⟩ :=
        (passes.isUpToDate_of_recent wanted notBefore notAfter recent).exists_units_eq
      exact ⟨row, fun _ => isRow⟩
    · exact ⟨globalRow, fun isListed => absurd isListed listed⟩
  obtain ⟨rowOf, isRow⟩ := Classical.skolem.mp ofCollection
  refine ⟨globalRow, rowOf, globalFound, fun collectionId listed => (isRow collectionId listed).1,
    fun kind adds => ?_⟩
  have addsUp : Decimal.sumUnits (after.market.collectionIds.map fun collectionId =>
      (rowOf collectionId).volume kind) = (globalRow.volume kind).units := by
    rw [globalUnits kind adds.all, ← sumUnits_pricesInRange_collections, Decimal.sumUnits,
      List.map_map]
    exact congrArg List.sum (List.map_congr_left fun collectionId listed =>
      (isRow collectionId listed).2 kind (adds.each collectionId listed))
  refine ⟨addsUp, fun amountSums => ?_⟩
  obtain ⟨total, summed, exactly⟩ := amountSums.exists_sum?_eq
  exact ⟨total, summed, exactly.trans addsUp⟩

/-- A sale of another collection in the same hour, priced at another scale. -/
def otherSale : Transaction :=
  { thirdHourSale with
    collectionId := -2
    price := (Decimal.ofParts? false 7500 4).getD .zero }

/-- Two collections with sales, and a token of a third one. -/
def withThreeCollections : Deployment :=
  { withTwoSales with
    market := (withTwoSales.market.record otherSale).addToken 5
      { ownerId := 7, attributes := "" } }

theorem collectionVolumes_add_up_withThreeCollections :
    ∃ summary after globalRow, ∃ rowOf : Int64 → HourlyVolume,
      (runPass perCollectionSettings .never (thirdHourPass []).now).runOn withThreeCollections =
          (.ok summary, after) ∧
        summary.scopes = 4 ∧ after.market.collectionIds = [-2, 1, 5] ∧
        after.market.row? .global (thirdHourPass []).hour = some globalRow ∧
        (∀ collectionId ∈ after.market.collectionIds,
          after.market.row? (.collection collectionId) (thirdHourPass []).hour =
            some (rowOf collectionId)) ∧
        Decimal.sumUnits (after.market.collectionIds.map fun collectionId =>
          (rowOf collectionId).buyVolume) = globalRow.buyVolume.units := by
  have succeeded :
      ((runPass perCollectionSettings .never (thirdHourPass []).now).runOn
        withThreeCollections).1.isOk = true := by
    decide +kernel
  have ids : ((runPass perCollectionSettings .never (thirdHourPass []).now).runOn
      withThreeCollections).2.market.collectionIds = [-2, 1, 5] := by
    decide +kernel
  have inAll : Decimal.HasExactSums (((runPass perCollectionSettings .never
      (thirdHourPass []).now).runOn withThreeCollections).2.market.pricesInRange .global
        (thirdHourPass []).hour.start (thirdHourPass []).hour.endInstant .buy) := by
    decide +kernel
  have inEach : ∀ collectionId ∈ [(-2 : Int64), 1, 5],
      Decimal.HasExactSums (((runPass perCollectionSettings .never
        (thirdHourPass []).now).runOn withThreeCollections).2.market.pricesInRange
          (.collection collectionId) (thirdHourPass []).hour.start
          (thirdHourPass []).hour.endInstant .buy) := by
    -- Each collection by itself, so that nothing is decided for all numbers there are.
    simp only [List.forall_mem_cons]
    refine ⟨?_, ?_, ?_, List.forall_mem_nil _⟩ <;> decide +kernel
  cases ran : (runPass perCollectionSettings .never (thirdHourPass []).now).runOn
      withThreeCollections with
  | mk outcome after =>
      rw [ran] at succeeded ids inAll inEach
      cases outcome with
      | error failure => exact nomatch succeeded
      | ok summary =>
          obtain ⟨scopes, volumes⟩ := collectionVolumes_add_up_to_globalVolume rfl ran
          obtain ⟨globalRow, rowOf, globalFound, found, addUp⟩ :=
            volumes (thirdHourPass []).hour (by decide) (by decide) (by decide)
          have adds : after.market.AddsByCollection (thirdHourPass []).hour .buy :=
            { all := inAll.hasAmountSums
              each := fun collectionId listed =>
                (inEach collectionId (ids ▸ listed)).hasAmountSums }
          refine ⟨summary, after, globalRow, rowOf, rfl, ?_, ids, globalFound, found,
            (addUp .buy adds).1⟩
          rw [scopes, ids]
          rfl

end Operation

end MarketStats
