import MarketStats.Model.Statistics
import MarketStats.Proofs.Decimal.Written
import MarketStats.Proofs.Json.RoundTrip

/-!
# Reading back published statistics

Statistics are published as a JSON text and decoded whenever they are read.
Nothing is lost on the way except for the signs of amounts that are zero.
-/

namespace MarketStats

theorem Json.asAmount?_toText (amount : Decimal) :
    (Json.text amount.toText).asAmount? = some amount.withoutZeroSign := by
  change Decimal.read? amount.toText.toList = _
  unfold Decimal.toText
  rw [String.toList_ofList, Decimal.read?_toChars]

namespace AttributeCount

theorem isWritable_toJson (counted : AttributeCount) : counted.toJson.IsWritable := by
  apply Json.isWritable_record
  simp only [List.forall_mem_cons]
  exact ⟨Json.isWritable_text _, Json.isWritable_text _, Json.isWritable_nat _,
    List.forall_mem_nil _⟩

theorem ofJson?_toJson (counted : AttributeCount) : ofJson? counted.toJson = some counted := by
  have fields : counted.toJson.asRecord? ["traitName", "value", "count"] =
      some [.text counted.traitName, .text counted.value, .nat counted.count.toNat] :=
    Json.asRecord?_record rfl (by decide)
  unfold ofJson?
  rw [fields]
  simp only [Option.bind_eq_bind, Option.bind_some, Json.asUInt64?_nat]
  rfl

end AttributeCount

namespace CollectionStatistics

/-- The statistics without the signs of amounts that are zero. -/
def withoutZeroSigns (statistics : CollectionStatistics) : CollectionStatistics :=
  { statistics with
    floorPrice := statistics.floorPrice.withoutZeroSign
    volumeTraded := statistics.volumeTraded.withoutZeroSign }

theorem withoutZeroSigns_eq_self_iff (statistics : CollectionStatistics) :
    statistics.withoutZeroSigns = statistics ↔
      statistics.floorPrice.withoutZeroSign = statistics.floorPrice ∧
        statistics.volumeTraded.withoutZeroSign = statistics.volumeTraded := by
  obtain ⟨itemsTotal, ownersTotal, floorPrice, volumeTraded, attributes⟩ := statistics
  simp only [withoutZeroSigns, mk.injEq, true_and, and_true]

theorem isWritable_toJson (statistics : CollectionStatistics) :
    statistics.toJson.IsWritable := by
  apply Json.isWritable_record
  simp only [List.forall_mem_cons]
  refine ⟨Json.isWritable_nat _, Json.isWritable_nat _, Json.isWritable_text _,
    Json.isWritable_text _, ?_, List.forall_mem_nil _⟩
  exact Json.areWritable_map fun counted _ => counted.isWritable_toJson

theorem ofJson?_toJson (statistics : CollectionStatistics) :
    ofJson? statistics.toJson = some statistics.withoutZeroSigns := by
  have fields : statistics.toJson.asRecord?
      ["itemsTotal", "ownersTotal", "floorPrice", "volumeTraded", "attributes"] =
      some [.nat statistics.itemsTotal.toNat, .nat statistics.ownersTotal.toNat,
        .text statistics.floorPrice.toText, .text statistics.volumeTraded.toText,
        .array (statistics.attributes.map AttributeCount.toJson)] :=
    Json.asRecord?_record rfl (by decide)
  have attributes :
      (statistics.attributes.map AttributeCount.toJson).mapM AttributeCount.ofJson? =
        some statistics.attributes :=
    Json.mapM_map_of_take fun counted _ => counted.ofJson?_toJson
  unfold ofJson?
  rw [fields]
  simp only [Option.bind_eq_bind, Option.bind_some, Json.asUInt64?_nat, Json.asAmount?_toText,
    Json.asList?, attributes]
  rfl

/-- The published text of statistics is decoded to the statistics, but for the
signs of zeros. -/
theorem decode?_toText (statistics : CollectionStatistics) :
    Json.decode? ofJson? (Text.ofString statistics.toJson.toText) =
      some statistics.withoutZeroSigns := by
  rw [Json.decode?_toText _ _ statistics.isWritable_toJson, ofJson?_toJson]

theorem withoutZeroSigns_withoutZeroSigns (statistics : CollectionStatistics) :
    statistics.withoutZeroSigns.withoutZeroSigns = statistics.withoutZeroSigns := by
  simp [withoutZeroSigns]

end CollectionStatistics

namespace Token

theorem isWritable_toJson (token : Token) : token.toJson.IsWritable := by
  apply Json.isWritable_record
  simp only [List.forall_mem_cons]
  exact ⟨Json.isWritable_int _, Json.isWritable_text _, List.forall_mem_nil _⟩

theorem ofJson?_toJson (token : Token) : ofJson? token.toJson = some token := by
  have fields : token.toJson.asRecord? ["owner_id", "attributes"] =
      some [.int token.ownerId.toInt, .text token.attributes] :=
    Json.asRecord?_record rfl (by decide)
  unfold ofJson?
  rw [fields]
  simp only [Option.bind_eq_bind, Option.bind_some, Json.asInt64?_int]
  rfl

end Token

end MarketStats
