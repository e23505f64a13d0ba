import MarketStats.Deployment.Basic
import MarketStats.Model.Leaderboard

/-!
# Published statistics and leaderboards

Statistics are published in the shared tier: as a JSON text under a key of the
collection, and as a score of its token identifier in one ranking for each
dimension.  A page of a leaderboard is put together when it is read; a member
whose mapping or statistics cannot be read is left out of it.
-/

namespace MarketStats

def statisticsKey (tokenId : String) : String :=
  "stats:collection:" ++ tokenId

def leaderboardKey (dimension : LeaderboardDimension) : String :=
  "leaderboard:" ++ dimension.name

namespace Operation

def readStatistics (tokenId : String) : Operation CollectionStatistics := do
  match ← askShared (.get (statisticsKey tokenId)) with
  | none => fail (.notFound (statisticsKey tokenId))
  | some written =>
      match Json.decode? CollectionStatistics.ofJson? (Text.ofString written) with
      | some statistics => pure statistics
      | none => fail .unreadable

def writeStatistics (tokenId : String) (statistics : CollectionStatistics) : Operation Unit :=
  askShared (.keep (statisticsKey tokenId) statistics.toJson.toText)

def writeScores (tokenId : String) (statistics : CollectionStatistics) :
    List LeaderboardDimension → Operation Unit
  | [] => pure ()
  | dimension :: rest => do
      askShared (.rank (leaderboardKey dimension) tokenId (dimension.score statistics))
      writeScores tokenId statistics rest

def updateLeaderboards (tokenId : String) (statistics : CollectionStatistics) : Operation Unit :=
  writeScores tokenId statistics LeaderboardDimension.all

def readEntry (tokenId : String) : Operation LeaderboardEntry := do
  let info ← lookup tokenId
  let statistics ← readStatistics tokenId
  pure
    { tokenId := info.tokenId
      collectionId := info.collectionId
      name := info.name
      statistics }

/-- The lines for those members that have one; the others are counted. -/
def readEntries : List String → Operation (List LeaderboardEntry)
  | [] => pure []
  | tokenId :: rest => do
      match ← attempt (readEntry tokenId) with
      | .ok entry =>
          let entries ← readEntries rest
          pure (entry :: entries)
      | .error _ =>
          count fun counters => { counters with entriesSkipped := counters.entriesSkipped + 1 }
          readEntries rest

/-- The lines at a range of ranks along the dimension that a request names. -/
def leaderboard (request : String) (first last : Int) (descending : Bool) :
    Operation (List LeaderboardEntry) :=
  match LeaderboardDimension.ofRequest? request with
  | none => fail (.invalidDimension request)
  | some dimension => do
      let members ← askShared (.ranked (leaderboardKey dimension) first last descending)
      readEntries members

end Operation

end MarketStats
