import MarketStats.Model.Leaderboard
import MarketStats.Proofs.Model.Statistics

/-!
# Reading back leaderboards

A line of a leaderboard is read back as its statistics are.
-/

namespace MarketStats

namespace LeaderboardDimension

theorem isWritable_toJson (dimension : LeaderboardDimension) : dimension.toJson.IsWritable :=
  Json.isWritable_text _

theorem ofJson?_toJson (dimension : LeaderboardDimension) :
    ofJson? dimension.toJson = some dimension :=
  dimension.ofName?_name

end LeaderboardDimension

namespace LeaderboardEntry

/-- The line without the signs of amounts that are zero. -/
def withoutZeroSigns (entry : LeaderboardEntry) : LeaderboardEntry :=
  { entry with statistics := entry.statistics.withoutZeroSigns }

theorem withoutZeroSigns_withoutZeroSigns (entry : LeaderboardEntry) :
    entry.withoutZeroSigns.withoutZeroSigns = entry.withoutZeroSigns := by
  simp only [withoutZeroSigns, CollectionStatistics.withoutZeroSigns_withoutZeroSigns]

theorem isWritable_toJson (entry : LeaderboardEntry) : entry.toJson.IsWritable := by
  apply Json.isWritable_record
  simp only [List.forall_mem_cons]
  exact ⟨Json.isWritable_text _, Json.isWritable_int _, Json.isWritable_text _,
    entry.statistics.isWritable_toJson, List.forall_mem_nil _⟩

theorem ofJson?_toJson (entry : LeaderboardEntry) :
    ofJson? entry.toJson = some entry.withoutZeroSigns := by
  have fields : entry.toJson.asRecord? ["tokenId", "collectionId", "name", "statistics"] =
      some [.text entry.tokenId, .int entry.collectionId.toInt, .text entry.name,
        entry.statistics.toJson] :=
    Json.asRecord?_record rfl (by decide)
  unfold ofJson?
  rw [fields]
  simp only [Option.bind_eq_bind, Option.bind_some, Json.asInt64?_int,
    CollectionStatistics.ofJson?_toJson]
  rfl

end LeaderboardEntry

end MarketStats
