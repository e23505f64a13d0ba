import MarketStats.Model.Collection
import MarketStats.Proofs.Json.RoundTrip

/-!
# Reading back mappings

The mapping of a token identifier is kept as a JSON text, in the side store and
in the local tier.  It is read back as it was.
-/

namespace MarketStats

namespace CollectionInfo

theorem isWritable_toJson (info : CollectionInfo) : info.toJson.IsWritable := by
  apply Json.isWritable_record
  simp only [List.forall_mem_cons]
  exact ⟨Json.isWritable_text _, Json.isWritable_int _, Json.isWritable_text _,
    List.forall_mem_nil _⟩

theorem ofJson?_toJson (info : CollectionInfo) : ofJson? info.toJson = some info := by
  have fields : info.toJson.asRecord? ["tokenId", "collectionId", "name"] =
      some [.text info.tokenId, .int info.collectionId.toInt, .text info.name] :=
    Json.asRecord?_record rfl (by decide)
  unfold ofJson?
  rw [fields]
  simp only [Option.bind_eq_bind, Option.bind_some, Json.asInt64?_int]
  rfl

theorem decode?_toText (info : CollectionInfo) :
    Json.decode? ofJson? (Text.ofString info.toJson.toText) = some info := by
  rw [Json.decode?_toText _ _ info.isWritable_toJson, ofJson?_toJson]

end CollectionInfo

end MarketStats
