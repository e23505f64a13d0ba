import MarketStats.Proofs.HourBucket.Instants
import MarketStats.Store.Marketplace

/-!
# Rows and the transactions of their hours

The rows of a scope are listed once each and by increasing hour.  A transaction
counts towards the sums of one hour only, the one that contains its timestamp.
-/

namespace MarketStats

/-- Something of a collection was bought. -/
def Transaction.IsPurchaseOf (transaction : Transaction) (collectionId : Int64) : Prop :=
  transaction.collectionId = collectionId ∧ transaction.kind = .buy

instance (transaction : Transaction) (collectionId : Int64) :
    Decidable (transaction.IsPurchaseOf collectionId) :=
  inferInstanceAs (Decidable (_ ∧ _))

theorem Transaction.decide_isPurchaseOf (transaction : Transaction) (collectionId : Int64) :
    decide (transaction.IsPurchaseOf collectionId) =
      (transaction.collectionId == collectionId && transaction.kind == .buy) :=
  Bool.decide_and _ _

namespace Marketplace

/-- A recorded transaction makes no difference to the prices of another hour. -/
theorem pricesInRange_record (market : Marketplace) {transaction : Transaction}
    {hour : HourBucket} (different : HourBucket.containing transaction.timestamp ≠ hour)
    (scope : VolumeScope) (kind : TransactionKind) :
    (market.record transaction).pricesInRange scope hour.start hour.endInstant kind =
      market.pricesInRange scope hour.start hour.endInstant kind := by
  have outside : ¬ (hour.start ≤ transaction.timestamp ∧ transaction.timestamp < hour.endInstant) :=
    fun within => different (HourBucket.containing_eq_of_within within.1 within.2)
  have skipped : (decide (hour.start ≤ transaction.timestamp) &&
      decide (transaction.timestamp < hour.endInstant)) = false := by
    simpa only [Bool.and_eq_false_iff, decide_eq_false_iff_not, ← Classical.not_and_iff_not_or_not]
      using outside
  simp only [pricesInRange, record, List.filter_append, List.filter_cons, List.filter_nil,
    Bool.and_assoc, skipped, Bool.and_false, Bool.false_eq_true, if_false, List.append_nil]

theorem volumeInRange?_record (market : Marketplace) {transaction : Transaction}
    {hour : HourBucket} (different : HourBucket.containing transaction.timestamp ≠ hour)
    (scope : VolumeScope) (kind : TransactionKind) :
    (market.record transaction).volumeInRange? scope hour.start hour.endInstant kind =
      market.volumeInRange? scope hour.start hour.endInstant kind := by
  simp only [volumeInRange?, pricesInRange_record market different]

/-- A transaction in front of the last hour of all adds its price to the range of
its own hour, if the scope covers it, and to no other. -/
theorem pricesInRange_record_of_next? (market : Marketplace) {transaction : Transaction}
    {later : HourBucket} (next : (HourBucket.containing transaction.timestamp).next? = some later)
    (scope : VolumeScope) (kind : TransactionKind) (hour : HourBucket) :
    (market.record transaction).pricesInRange scope hour.start hour.endInstant kind =
      market.pricesInRange scope hour.start hour.endInstant kind ++
        if scope.covers transaction = true ∧ transaction.kind = kind ∧
          HourBucket.containing transaction.timestamp = hour then [transaction.price] else [] := by
  have within : HourBucket.containing transaction.timestamp = hour ↔ _ :=
    HourBucket.containing_eq_iff_of_next? next
  rw [pricesInRange, record, List.filter_append, List.map_append, pricesInRange]
  congr 1
  by_cases counts : scope.covers transaction = true ∧ transaction.kind = kind ∧
      HourBucket.containing transaction.timestamp = hour
  · obtain ⟨covered, ofKind, inHour⟩ := counts
    obtain ⟨started, unfinished⟩ := within.mp inHour
    simp [covered, ofKind, inHour, started, unfinished]
  · rw [if_neg counts, List.map_eq_nil_iff, List.filter_eq_nil_iff]
    rintro other listed
    obtain rfl := List.mem_singleton.mp listed
    simp only [Bool.and_eq_true, beq_iff_eq, decide_eq_true_eq]
    rintro ⟨⟨⟨covered, ofKind⟩, started⟩, unfinished⟩
    exact counts ⟨covered, ofKind, within.mpr ⟨started, unfinished⟩⟩

theorem mem_rowsOf {market : Marketplace} {scope : VolumeScope} {row : HourlyVolume} :
    row ∈ market.rowsOf scope ↔ ∃ hour, market.row? scope hour = some row := by
  simp only [rowsOf, row?, List.mem_map, List.mem_filter, beq_iff_eq]
  constructor
  · rintro ⟨⟨⟨rowScope, hour⟩, _⟩, ⟨listed, rfl⟩, rfl⟩
    exact ⟨hour, Std.TreeMap.mem_toList_iff_getElem?_eq_some.mp listed⟩
  · rintro ⟨hour, found⟩
    exact ⟨((scope, hour), row), ⟨Std.TreeMap.mem_toList_iff_getElem?_eq_some.mpr found, rfl⟩, rfl⟩

/-- Rows that are stored under their own hours are listed by increasing hour. -/
theorem pairwise_hours_rowsOf {market : Marketplace} {scope : VolumeScope}
    (own : ∀ hour row, market.row? scope hour = some row → row.hour = hour) :
    ((market.rowsOf scope).map HourlyVolume.hour).Pairwise (· < ·) := by
  unfold rowsOf
  rw [List.map_map, List.pairwise_map, List.pairwise_filter]
  refine Std.TreeMap.ordered_keys_toList.imp_of_mem ?_
  rintro ⟨⟨firstScope, firstHour⟩, first⟩ ⟨⟨secondScope, secondHour⟩, second⟩ firstListed
    secondListed ordered firstOfScope secondOfScope
  obtain rfl : firstScope = scope := eq_of_beq firstOfScope
  obtain rfl : secondScope = firstScope := eq_of_beq secondOfScope
  have firstFound := Std.TreeMap.mem_toList_iff_getElem?_eq_some.mp firstListed
  have secondFound := Std.TreeMap.mem_toList_iff_getElem?_eq_some.mp secondListed
  change first.hour < second.hour
  rw [own firstHour first firstFound, own secondHour second secondFound]
  have hours : compare firstHour secondHour = .lt := by
    simpa [compareLex, compareOn, Std.ReflCmp.compare_self] using ordered
  exact Int.compare_eq_lt.mp hours

/-- The transactions in which something of a collection was bought. -/
def purchases (market : Marketplace) (collectionId : Int64) : List Transaction :=
  market.transactions.filter fun transaction => decide (transaction.IsPurchaseOf collectionId)

theorem mem_purchases {market : Marketplace} {collectionId : Int64} {transaction : Transaction} :
    transaction ∈ market.purchases collectionId ↔
      transaction ∈ market.transactions ∧ transaction.IsPurchaseOf collectionId := by
  rw [purchases, List.mem_filter, decide_eq_true_eq]

/-- The prices that the store looks at are those of the purchases. -/
theorem buyPrices_eq_map (market : Marketplace) (collectionId : Int64) :
    market.buyPrices collectionId = (market.purchases collectionId).map Transaction.price := by
  simp only [buyPrices, purchases, Transaction.decide_isPurchaseOf]

/-- What was paid in an hour was paid in the purchases of that hour. -/
theorem pricesInRange_buy (market : Marketplace) (collectionId : Int64) {hour later : HourBucket}
    (next : hour.next? = some later) :
    market.pricesInRange (.collection collectionId) hour.start hour.endInstant .buy =
      ((market.purchases collectionId).filter fun transaction =>
        decide (HourBucket.containing transaction.timestamp = hour)).map Transaction.price := by
  rw [pricesInRange, purchases, List.filter_filter]
  congr 2
  funext transaction
  rw [decide_eq_decide.mpr (HourBucket.containing_eq_iff next), Bool.decide_and,
    Transaction.decide_isPurchaseOf, VolumeScope.covers, Bool.and_assoc, Bool.and_comm]

/-- A range that leaves out no row of a scope has all of them. -/
theorem rowsBetween?_eq_rowsOf {market : Marketplace} {scope : VolumeScope}
    {first last : HourBucket} (ordered : first ≤ last)
    (inRange : ∀ hour row, market.row? scope hour = some row → first ≤ hour ∧ hour ≤ last) :
    market.rowsBetween? scope first last = some (market.rowsOf scope) := by
  rw [rowsBetween?, if_pos ordered, rowsOf]
  congr 2
  apply List.filter_congr
  rintro ⟨⟨rowScope, hour⟩, row⟩ listed
  by_cases ofScope : rowScope = scope
  · subst ofScope
    obtain ⟨notBefore, notAfter⟩ :=
      inRange hour row (Std.TreeMap.mem_toList_iff_getElem?_eq_some.mp listed)
    simp [notBefore, notAfter]
  · have otherScope : (rowScope == scope) = false := beq_eq_false_iff_ne.mpr ofScope
    rw [otherScope]
    rfl

/-- The instants of an hour that has a later one are those between its ends, and
it begins where their minutes are cut off.  Hence a transaction in front of the
last hour of all lies between the ends of its own hour only, and its price is
added to the ranges of this hour alone.  Hours follow the order of instants, and
the start of an hour belongs to the hour. -/
theorem hours_divide_transactions :
    (∀ (hour later : HourBucket) (instant : Calendar.Instant), hour.next? = some later →
      (hour.start ≤ instant ∧ instant < hour.endInstant ↔ HourBucket.containing instant = hour)) ∧
      (∀ instant : Calendar.Instant,
        instant.fields.startOfHour? = some (HourBucket.containing instant).start.fields) ∧
      (∀ (transaction : Transaction) (later : HourBucket),
        (HourBucket.containing transaction.timestamp).next? = some later →
          (∀ hour : HourBucket,
            hour.start ≤ transaction.timestamp ∧ transaction.timestamp < hour.endInstant ↔
              hour = HourBucket.containing transaction.timestamp) ∧
            ∀ (market : Marketplace) (scope : VolumeScope) (kind : TransactionKind)
                (hour : HourBucket),
              (market.record transaction).pricesInRange scope hour.start hour.endInstant kind =
                market.pricesInRange scope hour.start hour.endInstant kind ++
                  if scope.covers transaction = true ∧ transaction.kind = kind ∧
                    HourBucket.containing transaction.timestamp = hour
                  then [transaction.price] else []) ∧
      (∀ first second : Calendar.Instant, first ≤ second →
        HourBucket.containing first ≤ HourBucket.containing second) ∧
      (∀ hour : HourBucket, HourBucket.containing hour.start = hour) ∧
      ∀ instant : Calendar.Instant,
        HourBucket.containing (HourBucket.containing instant).start =
          HourBucket.containing instant := by
  refine ⟨fun hour later instant next => (HourBucket.containing_eq_iff next).symm, ?_, ?_,
    fun _ _ => HourBucket.containing_mono, HourBucket.containing_start,
    fun instant => HourBucket.containing_start _⟩
  · intro instant
    rw [instant.startOfHour?_fields, HourBucket.fields_start_containing]
  · intro transaction later next
    refine ⟨fun hour => ?_, fun market => market.pricesInRange_record_of_next? next⟩
    rw [← HourBucket.containing_eq_iff_of_next? next]
    exact eq_comm

/-- A listing in a leap second at the end of 1969. -/
def leapSecondListingOf1969 : Transaction :=
  { collectionId := 1
    kind := .list
    price := .zero
    timestamp :=
      { seconds := -1
        nanos := 1999999999
        seconds_ge := by decide
        seconds_le := by decide
        nanos_lt := by decide
        leap_at_minute_end := fun _ => by decide } }

/-- A leap second still belongs to the hour that it ends. -/
theorem hours_divide_transactions_leapSecond :
    ∃ hour later : HourBucket, hour.key = 1969123123 ∧ later.key = 1970010100 ∧
      hour.next? = some later ∧
      HourBucket.containing leapSecondListingOf1969.timestamp = hour ∧
      leapSecondListingOf1969.timestamp < later.start ∧
      (Marketplace.empty.record leapSecondListingOf1969).pricesInRange .global hour.start
        hour.endInstant .list = [.zero] ∧
      (Marketplace.empty.record leapSecondListingOf1969).pricesInRange .global later.start
        later.endInstant .list = [] ∧
      HourBucket.containing leapSecondListingOf1969.timestamp ≤
        HourBucket.containing later.start := by
  obtain ⟨within, -, counts, monotone, -, -⟩ := hours_divide_transactions
  let hour : HourBucket := ⟨-1, by decide, by decide⟩
  let later : HourBucket := ⟨0, by decide, by decide⟩
  have next : hour.next? = some later := by decide
  have ends : hour.endInstant = later.start := by
    rw [HourBucket.endInstant, next]
  have inHour : HourBucket.containing leapSecondListingOf1969.timestamp = hour := by decide
  obtain ⟨started, unfinished⟩ :=
    (within hour later leapSecondListingOf1969.timestamp next).mpr inHour
  rw [ends] at unfinished
  obtain ⟨-, prices⟩ := counts leapSecondListingOf1969 later (inHour ▸ next)
  refine ⟨hour, later, by decide +kernel, by decide +kernel, next, inHour, unfinished, ?_, ?_, ?_⟩
  · rw [prices, inHour]
    rfl
  · rw [prices, inHour, if_neg (by decide)]
    rfl
  · exact monotone _ _ (by decide)

end Marketplace

end MarketStats
