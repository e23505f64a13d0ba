import MarketStats.Decimal.Score
import MarketStats.Model.Collection
import MarketStats.Model.Statistics

/-!
# Leaderboards

Collections are ranked along four dimensions of their statistics.  A line of a
leaderboard shows the mapping of a collection and its statistics.
-/

namespace MarketStats

/-- The dimensions along which collections are ranked. -/
inductive LeaderboardDimension
  | items
  | owners
  | floorPrice
  | volume
deriving DecidableEq, Repr

/-- A line of a leaderboard. -/
structure LeaderboardEntry where
  tokenId : String
  collectionId : Int64
  name : String
  statistics : CollectionStatistics
deriving DecidableEq, Repr

namespace LeaderboardDimension

/-- All dimensions, in the order in which scores are written. -/
def all : List LeaderboardDimension :=
  [.items, .owners, .floorPrice, .volume]

def name : LeaderboardDimension → String
  | .items => "items"
  | .owners => "owners"
  | .floorPrice => "floor_price"
  | .volume => "volume"

def ofName? (name : String) : Option LeaderboardDimension :=
  if name = "items" then some .items
  else if name = "owners" then some .owners
  else if name = "floor_price" then some .floorPrice
  else if name = "volume" then some .volume
  else none

def lowerCase (text : String) : String :=
  String.ofList (text.toList.map Char.toLower)

/-- The dimension a request names; the case of ASCII letters does not matter. -/
def ofRequest? (request : String) : Option LeaderboardDimension :=
  ofName? (lowerCase request)

def score (dimension : LeaderboardDimension) (statistics : CollectionStatistics) : Double :=
  match dimension with
  | .items => Double.ofNat statistics.itemsTotal.toNat
  | .owners => Double.ofNat statistics.ownersTotal.toNat
  | .floorPrice => statistics.floorPrice.score
  | .volume => statistics.volumeTraded.score

def toJson (dimension : LeaderboardDimension) : Json :=
  .text dimension.name

def ofJson? (value : Json) : Option LeaderboardDimension :=
  value.asChoice?.bind ofName?

@[simp]
theorem ofName?_name (dimension : LeaderboardDimension) :
    ofName? dimension.name = some dimension := by
  cases dimension <;> decide

theorem mem_all (dimension : LeaderboardDimension) : dimension ∈ all := by
  cases dimension <;> decide

end LeaderboardDimension

namespace LeaderboardEntry

def toJson (entry : LeaderboardEntry) : Json :=
  .record
    [("tokenId", .text entry.tokenId),
      ("collectionId", .int entry.collectionId.toInt),
      ("name", .text entry.name),
      ("statistics", entry.statistics.toJson)]

def ofJson? (value : Json) : Option LeaderboardEntry := do
  match ← value.asRecord? ["tokenId", "collectionId", "name", "statistics"] with
  | [tokenId, collectionId, name, statistics] =>
      some
        { tokenId := ← tokenId.asText?
          collectionId := ← collectionId.asInt64?
          name := ← name.asText?
          statistics := ← CollectionStatistics.ofJson? statistics }
  | _ => none

end LeaderboardEntry

end MarketStats
