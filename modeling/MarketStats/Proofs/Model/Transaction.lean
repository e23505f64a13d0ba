import MarketStats.Model.Transaction
import MarketStats.Proofs.Calendar.Timestamp
import MarketStats.Proofs.Model.Statistics

/-!
# Reading back transactions

A transaction is read back with its collection, its kind and its time.  Its
price loses the sign of a zero.
-/

namespace MarketStats

theorem Json.asInstant?_toText (instant : Calendar.Instant) :
    (Json.text instant.toText).asInstant? = some instant := by
  unfold asInstant? text asText? Calendar.Instant.toText
  rw [Option.bind_some, String.toList_ofList, Calendar.Timestamp.read?_toChars]

namespace TransactionKind

theorem isWritable_toJson (kind : TransactionKind) : kind.toJson.IsWritable :=
  Json.isWritable_text _

theorem ofJson?_toJson (kind : TransactionKind) : ofJson? kind.toJson = some kind := by
  cases kind <;> rfl

end TransactionKind

namespace Transaction

/-- The transaction without the sign of a price that is zero. -/
def withoutZeroSigns (transaction : Transaction) : Transaction :=
  { transaction with price := transaction.price.withoutZeroSign }

theorem withoutZeroSigns_withoutZeroSigns (transaction : Transaction) :
    transaction.withoutZeroSigns.withoutZeroSigns = transaction.withoutZeroSigns := by
  simp [withoutZeroSigns]

theorem isWritable_toJson (transaction : Transaction) : transaction.toJson.IsWritable := by
  apply Json.isWritable_record
  simp only [List.forall_mem_cons]
  exact ⟨Json.isWritable_int _, transaction.kind.isWritable_toJson, Json.isWritable_text _,
    Json.isWritable_text _, List.forall_mem_nil _⟩

theorem ofJson?_toJson (transaction : Transaction) :
    ofJson? transaction.toJson = some transaction.withoutZeroSigns := by
  have fields : transaction.toJson.asRecord? ["collection_id", "tx_type", "price", "timestamp"] =
      some [.int transaction.collectionId.toInt, transaction.kind.toJson,
        .text transaction.price.toText, .text transaction.timestamp.toText] :=
    Json.asRecord?_record rfl (by decide)
  unfold ofJson?
  rw [fields]
  simp only [Option.bind_eq_bind, Option.bind_some, Json.asInt64?_int,
    TransactionKind.ofJson?_toJson, Json.asAmount?_toText, Json.asInstant?_toText]
  rfl

theorem leastSecond_le_saleSecond : Calendar.leastSecond ≤ 1714521600 := by decide

theorem saleSecond_le_greatestSecond : 1714521600 ≤ Calendar.greatestSecond := by decide

/-- A sale at a price of zero with a sign. -/
def negativeZeroSale : Transaction :=
  { collectionId := 1
    kind := .buy
    price := (Decimal.ofParts? true 0 28).getD .zero
    timestamp := .ofSecond 1714521600 leastSecond_le_saleSecond saleSecond_le_greatestSecond }

end Transaction

end MarketStats
