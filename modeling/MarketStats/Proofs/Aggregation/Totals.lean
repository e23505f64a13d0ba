import MarketStats.Aggregation.History
import MarketStats.Proofs.Aggregation.Rollup
import MarketStats.Proofs.Decimal.Exact
import MarketStats.Proofs.Statistics.Computation

/-!
# Hourly volumes add up to the volume traded

The volume traded in a collection is the sum over all of its purchases.  The
rows of its hours are sums too, each over the purchases of one hour.  As every
purchase belongs to exactly one hour, nothing is lost and nothing is counted
twice on the way over the hours.
-/

namespace MarketStats

section Groups

variable {Item Key : Type}

theorem sum_map_add (first second : Key → Int) (keys : List Key) :
    (keys.map fun key => first key + second key).sum =
      (keys.map first).sum + (keys.map second).sum := by
  induction keys with
  | nil => rfl
  | cons key keys ih =>
      simp only [List.map_cons, List.sum_cons, ih]
      omega

variable [DecidableEq Key]

theorem sum_map_ite (value : Int) {own : Key} {keys : List Key} (distinct : keys.Nodup) :
    (keys.map fun key => if own = key then value else 0).sum =
      if own ∈ keys then value else 0 := by
  induction keys with
  | nil => rfl
  | cons key keys ih =>
      obtain ⟨fresh, distinctRest⟩ := List.nodup_cons.mp distinct
      rw [List.map_cons, List.sum_cons, ih distinctRest]
      by_cases isKey : own = key
      · subst isKey
        rw [if_pos rfl, if_neg fresh, if_pos List.mem_cons_self, Int.add_zero]
      · rw [if_neg isKey, Int.zero_add]
        simp only [List.mem_cons, isKey, false_or]

/-- When each item has one of some different keys, the items of all keys together
are all items. -/
theorem sum_groups (value : Item → Int) (keyOf : Item → Key) {keys : List Key}
    (distinct : keys.Nodup) {items : List Item} (covered : ∀ item ∈ items, keyOf item ∈ keys) :
    (keys.map fun key =>
        ((items.filter fun item => decide (keyOf item = key)).map value).sum).sum =
      (items.map value).sum := by
  induction items with
  | nil => simp [List.map_const']
  | cons item items ih =>
      obtain ⟨coveredHere, coveredRest⟩ := List.forall_mem_cons.mp covered
      have split : ∀ key,
          (((item :: items).filter fun item => decide (keyOf item = key)).map value).sum =
            (if keyOf item = key then value item else 0) +
              ((items.filter fun item => decide (keyOf item = key)).map value).sum := by
        intro key
        rw [List.filter_cons]
        split
        · rename_i isKey
          rw [if_pos (of_decide_eq_true isKey), List.map_cons, List.sum_cons]
        · rename_i otherKey
          rw [if_neg fun isKey => otherKey (decide_eq_true isKey), Int.zero_add]
      simp only [split]
      rw [sum_map_add, sum_map_ite _ distinct, if_pos coveredHere, ih coveredRest, List.map_cons,
        List.sum_cons]

end Groups

namespace Marketplace

/-- The purchases of a collection fall into the hours of a project up to some
hour, and neither all of their prices nor those of any hour are rounded when
they are added. -/
structure AddsExactly (market : Marketplace) (collectionId : Int64) (floor last : HourBucket) :
    Prop where
  inProject : ∀ transaction ∈ market.purchases collectionId,
    floor ≤ HourBucket.containing transaction.timestamp ∧
      HourBucket.containing transaction.timestamp ≤ last
  total : Decimal.HasExactSums (market.buyPrices collectionId)
  hourly : ∀ hour, floor ≤ hour → hour ≤ last →
    Decimal.HasExactSums
      (market.pricesInRange (.collection collectionId) hour.start hour.endInstant .buy)

variable {market : Marketplace} {collectionId : Int64} {floor last : HourBucket}

/-- What was paid in the purchases of an hour, in units of the smallest
fraction. -/
def paidIn (market : Marketplace) (collectionId : Int64) (hour : HourBucket) : Int :=
  (((market.purchases collectionId).filter fun transaction =>
    decide (HourBucket.containing transaction.timestamp = hour)).map fun transaction =>
      transaction.price.units).sum

theorem AddsExactly.of_transactions_eq {changed : Marketplace}
    (adds : market.AddsExactly collectionId floor last)
    (same : changed.transactions = market.transactions) :
    changed.AddsExactly collectionId floor last where
  inProject := by
    rw [purchases, same]
    exact adds.inProject
  total := by
    rw [buyPrices, same]
    exact adds.total
  hourly := by
    intro hour
    rw [pricesInRange, same]
    exact adds.hourly hour

/-- Without a purchase nothing was paid. -/
theorem buyPrices_of_notMem_collectionIds (absent : collectionId ∉ market.collectionIds) :
    market.buyPrices collectionId = [] := by
  rw [buyPrices_eq_map, List.map_eq_nil_iff, List.eq_nil_iff_forall_not_mem]
  intro transaction purchased
  obtain ⟨recorded, ofCollection, -⟩ := mem_purchases.mp purchased
  exact absent ((mem_collectionIds market collectionId).mpr
    (.inr ⟨transaction, recorded, ofCollection⟩))

theorem rowsOf_of_no_rows {scope : VolumeScope} (noRows : ∀ hour, market.row? scope hour = none) :
    market.rowsOf scope = [] := by
  refine List.eq_nil_iff_forall_not_mem.mpr fun row listed => ?_
  obtain ⟨hour, found⟩ := mem_rowsOf.mp listed
  rw [noRows] at found
  exact nomatch found

/-- The row of an hour holds what was paid in the purchases of the hour. -/
theorem AddsExactly.units_buyVolume (adds : market.AddsExactly collectionId floor last)
    {later : HourBucket} (next : last.next? = some later) {row : HourlyVolume}
    (notBefore : floor ≤ row.hour) (notAfter : row.hour ≤ last)
    (sameScope : row.scope = .collection collectionId) (sums : market.SumsUp row) :
    row.buyVolume.units = market.paidIn collectionId row.hour := by
  obtain ⟨following, nextHour⟩ := HourBucket.exists_next?_of_le notAfter next
  obtain ⟨total, summed, exactly⟩ := (adds.hourly row.hour notBefore notAfter).exists_sum?_eq
  have stored : market.volumeInRange? row.scope row.hour.start row.hour.endInstant .buy =
      some row.buyVolume := sumsUp_iff.mp sums .buy
  rw [sameScope, volumeInRange?, summed] at stored
  cases stored
  rw [exactly, market.pricesInRange_buy collectionId nextHour, Decimal.sumUnits, List.map_map]
  rfl

/-- The rows of all hours of the project together hold what was paid in all
purchases. -/
theorem AddsExactly.sumUnits_rowsOf (adds : market.AddsExactly collectionId floor last)
    {later : HourBucket} (next : last.next? = some later)
    (rolledUp : market.IsRolledUp (.collection collectionId) floor last) :
    Decimal.sumUnits ((market.rowsOf (.collection collectionId)).map HourlyVolume.buyVolume) =
      Decimal.sumUnits (market.buyPrices collectionId) := by
  have distinct : ((market.rowsOf (.collection collectionId)).map HourlyVolume.hour).Nodup :=
    rolledUp.distinct.imp fun earlier same => Int.ne_of_lt earlier (congrArg HourBucket.index same)
  have covered : ∀ transaction ∈ market.purchases collectionId,
      HourBucket.containing transaction.timestamp ∈
        (market.rowsOf (.collection collectionId)).map HourlyVolume.hour :=
    fun transaction purchased => (rolledUp.hours _).mpr (adds.inProject transaction purchased)
  have ofHours : ∀ row ∈ market.rowsOf (.collection collectionId),
      row.buyVolume.units = market.paidIn collectionId row.hour := by
    intro row listed
    obtain ⟨notBefore, notAfter⟩ := (rolledUp.hours row.hour).mp (List.mem_map_of_mem listed)
    obtain ⟨sameScope, sums⟩ := rolledUp.sums row listed
    exact adds.units_buyVolume next notBefore notAfter sameScope sums
  calc
    Decimal.sumUnits ((market.rowsOf (.collection collectionId)).map HourlyVolume.buyVolume) =
        (((market.rowsOf (.collection collectionId)).map HourlyVolume.hour).map
          (market.paidIn collectionId)).sum := by
      rw [Decimal.sumUnits, List.map_map, List.map_map]
      exact congrArg List.sum (List.map_congr_left ofHours)
    _ = ((market.purchases collectionId).map fun transaction => transaction.price.units).sum :=
      sum_groups _ _ distinct covered
    _ = Decimal.sumUnits (market.buyPrices collectionId) := by
      rw [buyPrices_eq_map, Decimal.sumUnits, List.map_map]
      rfl

end Marketplace

namespace Operation

open Marketplace

variable {settings : AggregationSettings} {now : Calendar.Instant} {before after : Deployment}
variable {summary : PassSummary} {collectionId : Int64}

/-- A pass over a scope without rows rolls up all of its transactions. -/
theorem Passes.isRolledUp {scope : VolumeScope} {scopes : List VolumeScope} {window rows : Nat}
    {floor last : HourBucket} {written : VolumeScope → List HourBucket}
    (passes : Passes scopes .never window floor last rows before after (.ok summary) written)
    (wanted : scope ∈ scopes) (noRows : ∀ hour, before.market.row? scope hour = none) :
    after.market.IsRolledUp scope floor last := by
  obtain ⟨-, -, all⟩ := passes.completed summary rfl
  have allHours : written scope = HourBucket.backTo floor last :=
    (all rfl scope wanted).trans (dueHours_of_no_rows noRows)
  have follows : after.market.FollowsUpTo scope floor last [] := by
    constructor
    · intro hour notBefore notAfter
      have isWritten : hour ∈ written scope := by
        rw [allHours]
        exact HourBucket.mem_backTo_iff.mpr ⟨notBefore, notAfter⟩
      obtain ⟨row, found, sameScope, sameHour, sums⟩ := passes.rewritten scope hour isWritten
      exact ⟨row, found, sameScope, sameHour, fun _ => sums⟩
    · intro hour outside
      rw [passes.kept scope hour, noRows]
      rw [allHours]
      exact fun isWritten => outside (HourBucket.mem_backTo_iff.mp isWritten)
  exact follows.isRolledUp

/-- Behind a pass the rows of a collection hold what was paid in it, whether or
not the collection is known to the pass. -/
theorem Passes.sumUnits_rowsOf {written : VolumeScope → List HourBucket}
    (passes : Passes (settings.scopes before.market) .never settings.recentWindowHours
      settings.floor (HourBucket.containing now) 0 before after (.ok summary) written)
    (perCollection : settings.perCollection = true)
    (noRows : ∀ hour, before.market.row? (.collection collectionId) hour = none)
    {later : HourBucket} (next : (HourBucket.containing now).next? = some later)
    (adds : before.market.AddsExactly collectionId settings.floor (HourBucket.containing now)) :
    Decimal.sumUnits
        ((after.market.rowsOf (.collection collectionId)).map HourlyVolume.buyVolume) =
      Decimal.sumUnits (before.market.buyPrices collectionId) := by
  by_cases known : collectionId ∈ before.market.collectionIds
  · have wanted : VolumeScope.collection collectionId ∈ settings.scopes before.market := by
      rw [AggregationSettings.scopes, AggregationSettings.collectionScopes, if_pos perCollection]
      exact List.mem_cons_of_mem _ (List.mem_map_of_mem known)
    have samePrices : after.market.buyPrices collectionId =
        before.market.buyPrices collectionId := by
      rw [buyPrices, buyPrices, passes.transactions]
    rw [← samePrices]
    exact (adds.of_transactions_eq passes.transactions).sumUnits_rowsOf next
      (passes.isRolledUp wanted noRows)
  · have unwanted : VolumeScope.collection collectionId ∉ settings.scopes before.market := by
      rw [AggregationSettings.scopes, AggregationSettings.collectionScopes, if_pos perCollection]
      simpa using known
    have stillNoRows : ∀ hour, after.market.row? (.collection collectionId) hour = none := by
      intro hour
      rw [passes.kept _ hour, noRows]
      rw [passes.outside _ unwanted]
      exact List.not_mem_nil
    rw [buyPrices_of_notMem_collectionIds known, rowsOf_of_no_rows stillNoRows]
    rfl

/-- A pass puts rows for hours of the project only. -/
theorem Passes.inProject {scope : VolumeScope} {scopes : List VolumeScope} {window rows : Nat}
    {floor last : HourBucket} {cancelled : Cancellation} {outcome : Except Failure PassSummary}
    {written : VolumeScope → List HourBucket}
    (passes : Passes scopes cancelled window floor last rows before after outcome written)
    (noRows : ∀ hour, before.market.row? scope hour = none) (hour : HourBucket)
    (row : HourlyVolume) (found : after.market.row? scope hour = some row) :
    floor ≤ hour ∧ hour ≤ last := by
  by_cases isWritten : hour ∈ written scope
  · have ofProject := (passes.isPrefix scope).trans (dueHours_prefix_backTo ..)
    exact HourBucket.mem_backTo_iff.mp (ofProject.subset isWritten)
  · rw [passes.kept scope hour isWritten, noRows] at found
    exact nomatch found

/-- Without outages the history over all hours of the project consists of all
rows of the scope. -/
theorem runOn_volumeHistory_of_clear {deployment : Deployment} (clear : deployment.outages = [])
    {scope : VolumeScope} {hours : Nat} {first : HourBucket}
    (ordered : settings.floor ≤ HourBucket.containing now) (asked : 0 < hours)
    (back : (HourBucket.containing now).hoursBefore? (hours - 1) = some first)
    (reaches : first ≤ settings.floor)
    (inProject : ∀ hour row, deployment.market.row? scope hour = some row →
      settings.floor ≤ hour ∧ hour ≤ HourBucket.containing now) :
    ((volumeHistory settings scope now hours).runOn deployment).1 =
      .ok (deployment.market.rowsOf scope) := by
  have isFloor : max first settings.floor = settings.floor := if_pos reaches
  have stored := rowsBetween?_eq_rowsOf ordered inProject
  have answered : deployment.market.perform deployment.pageCap
      (.rowsBetween scope settings.floor (HourBucket.containing now)) =
      (.ok (deployment.market.rowsOf scope), deployment.market) := by
    rw [Marketplace.perform, stored]
  have proceeds : ¬ (hours = 0 ∨ HourBucket.containing now < settings.floor) := by
    rintro (none | passed)
    · omega
    · exact Int.not_lt.mpr ordered passed
  unfold volumeHistory
  rw [if_neg proceeds, back]
  dsimp only
  rw [isFloor, runOn_askMarket_of_clear clear answered]

/-- When the purchases of a collection fall into the hours of the project up to
that of an instant, then the history of the collection adds up to the volume
traded behind a pass as of that instant. -/
theorem volumeHistory_adds_up_to_volumeTraded (perCollection : settings.perCollection = true)
    (noRows : ∀ hour, before.market.row? (.collection collectionId) hour = none)
    (adds : before.market.AddsExactly collectionId settings.floor (HourBucket.containing now))
    (notLast : (HourBucket.containing now).next?.isSome = true)
    (ran : (runPass settings .never now).runOn before = (.ok summary, after)) {hours : Nat}
    (reaches : HourBucket.containing now < settings.floor ∨ 0 < hours ∧
      ∃ first, (HourBucket.containing now).hoursBefore? (hours - 1) = some first ∧
        first ≤ settings.floor)
    (batchSize : Nat) :
    ∃ rows statistics,
      ((volumeHistory settings (.collection collectionId) now hours).runOn
          after.withoutOutages).1 = .ok rows ∧
        ((computeStatistics collectionId batchSize).runOn after.withoutOutages).1 =
          .ok statistics ∧
        Decimal.sumUnits (rows.map HourlyVolume.buyVolume) = statistics.volumeTraded.units ∧
        (Decimal.HasExactSums (rows.map HourlyVolume.buyVolume) →
          ∃ total, Decimal.sum? (rows.map HourlyVolume.buyVolume) = some total ∧
            total.units = statistics.volumeTraded.units) := by
  obtain ⟨later, next⟩ := Option.isSome_iff_exists.mp notLast
  obtain ⟨written, passes⟩ := exists_passes_of_runPass ran
  obtain ⟨volume, summed, exactly⟩ := adds.total.exists_sum?_eq
  have traded : after.market.buyVolume? collectionId = some volume := by
    rw [buyVolume?, buyPrices, passes.transactions]
    exact summed
  have clear : after.withoutOutages.outages = [] := rfl
  obtain ⟨statistics, last, computed, isVolume⟩ :=
    exists_runOn_computeStatistics clear traded batchSize
  suffices history : ∃ rows,
      ((volumeHistory settings (.collection collectionId) now hours).runOn
          after.withoutOutages).1 = .ok rows ∧
        Decimal.sumUnits (rows.map HourlyVolume.buyVolume) =
          Decimal.sumUnits (before.market.buyPrices collectionId) by
    obtain ⟨rows, answered, addsUp⟩ := history
    have same : Decimal.sumUnits (rows.map HourlyVolume.buyVolume) =
        statistics.volumeTraded.units := by
      rw [addsUp, isVolume, exactly]
    refine ⟨rows, statistics, answered, by rw [computed], same, fun exactRows => ?_⟩
    obtain ⟨total, summedRows, exactlyRows⟩ := exactRows.exists_sum?_eq
    exact ⟨total, summedRows, exactlyRows.trans same⟩
  by_cases passed : HourBucket.containing now < settings.floor
  · -- no hour, and therefore no purchase
    have noPurchases : before.market.purchases collectionId = [] := by
      refine List.eq_nil_iff_forall_not_mem.mpr fun transaction purchased => ?_
      obtain ⟨notBefore, notAfter⟩ := adds.inProject transaction purchased
      exact absurd passed (Int.not_lt.mpr (Int.le_trans notBefore notAfter))
    refine ⟨[], ?_, ?_⟩
    · rw [volumeHistory, if_pos (.inr passed)]
      rfl
    · rw [buyPrices_eq_map, noPurchases]
      rfl
  · obtain ⟨asked, first, back, notAfterFloor⟩ := reaches.resolve_left passed
    exact ⟨_, runOn_volumeHistory_of_clear clear (Int.not_lt.mp passed) asked back notAfterFloor
        (passes.inProject noRows),
      passes.sumUnits_rowsOf perCollection noRows next adds⟩

def perCollectionSettings : AggregationSettings :=
  { hourlySettings 1 with perCollection := true }

/-- A sale in the last second of the first hour of the project. -/
def firstHourSale : Transaction :=
  { collectionId := 1
    kind := .buy
    price := (Decimal.ofParts? false 225 2).getD .zero
    timestamp := .ofSecond 1714525199 (by decide) (by decide) }

def withTwoSales : Deployment :=
  { Deployment.empty 0 0 0 0 none with
    market := (Marketplace.empty.record firstHourSale).record thirdHourSale }

theorem volumeHistory_adds_up_withTwoSales :
    ∃ summary after rows statistics,
      (runPass perCollectionSettings .never (thirdHourPass []).now).runOn withTwoSales =
          (.ok summary, after) ∧
        ((volumeHistory perCollectionSettings (.collection 1) (thirdHourPass []).now 3).runOn
          after.withoutOutages).1 = .ok rows ∧
        ((computeStatistics 1 100).runOn after.withoutOutages).1 = .ok statistics ∧
        Decimal.sumUnits (rows.map HourlyVolume.buyVolume) = statistics.volumeTraded.units := by
  have inHours : ∀ hour ∈ HourBucket.backTo perCollectionSettings.floor (thirdHourPass []).hour,
      Decimal.HasExactSums
        (withTwoSales.market.pricesInRange (.collection 1) hour.start hour.endInstant .buy) := by
    decide +kernel
  have adds : withTwoSales.market.AddsExactly 1 perCollectionSettings.floor
      (thirdHourPass []).hour :=
    { inProject := by decide +kernel
      total := by decide +kernel
      hourly := fun hour notBefore notAfter =>
        inHours hour (HourBucket.mem_backTo_iff.mpr ⟨notBefore, notAfter⟩) }
  have reaches : (thirdHourPass []).hour < perCollectionSettings.floor ∨ 0 < 3 ∧
      ∃ first, (thirdHourPass []).hour.hoursBefore? (3 - 1) = some first ∧
        first ≤ perCollectionSettings.floor :=
    .inr ⟨by decide, perCollectionSettings.floor, by decide, by decide⟩
  have succeeded :
      ((runPass perCollectionSettings .never (thirdHourPass []).now).runOn
        withTwoSales).1.isOk = true := by
    decide +kernel
  cases ran : (runPass perCollectionSettings .never (thirdHourPass []).now).runOn withTwoSales with
  | mk outcome after =>
      rw [ran] at succeeded
      cases outcome with
      | error failure => exact nomatch succeeded
      | ok summary =>
          obtain ⟨rows, statistics, answered, computed, addsUp, -⟩ :=
            volumeHistory_adds_up_to_volumeTraded rfl (fun _ => rfl) adds (by decide) ran reaches
              100
          exact ⟨summary, after, rows, statistics, rfl, answered, computed, addsUp⟩

end Operation

end MarketStats
