import MarketStats.Json.Decode

/-!
# Statistics of a collection

Statistics are derived from the tokens and transactions of a collection and
are replaced as a whole.  The floor price is the smallest price somebody paid,
not the cheapest offer.
-/

namespace MarketStats

/-- How many tokens of a collection carry a trait with a value. -/
structure AttributeCount where
  traitName : String
  value : String
  count : UInt64
deriving DecidableEq, Repr

/-- The statistics of one collection; the attributes are sorted by trait and
value. -/
structure CollectionStatistics where
  itemsTotal : UInt64
  ownersTotal : UInt64
  floorPrice : Decimal
  volumeTraded : Decimal
  attributes : List AttributeCount
deriving DecidableEq, Repr

/-- A token of a collection: its owner, and its attributes as a JSON text. -/
structure Token where
  ownerId : Int64
  attributes : String
deriving DecidableEq, Repr

namespace AttributeCount

def toJson (counted : AttributeCount) : Json :=
  .record
    [("traitName", .text counted.traitName),
      ("value", .text counted.value),
      ("count", .nat counted.count.toNat)]

def ofJson? (value : Json) : Option AttributeCount := do
  match ← value.asRecord? ["traitName", "value", "count"] with
  | [traitName, value, count] =>
      some
        { traitName := ← traitName.asText?
          value := ← value.asText?
          count := ← count.asUInt64? }
  | _ => none

end AttributeCount

namespace CollectionStatistics

def toJson (statistics : CollectionStatistics) : Json :=
  .record
    [("itemsTotal", .nat statistics.itemsTotal.toNat),
      ("ownersTotal", .nat statistics.ownersTotal.toNat),
      ("floorPrice", .text statistics.floorPrice.toText),
      ("volumeTraded", .text statistics.volumeTraded.toText),
      ("attributes", .array (statistics.attributes.map AttributeCount.toJson))]

def ofJson? (value : Json) : Option CollectionStatistics := do
  match ← value.asRecord?
      ["itemsTotal", "ownersTotal", "floorPrice", "volumeTraded", "attributes"] with
  | [itemsTotal, ownersTotal, floorPrice, volumeTraded, attributes] =>
      some
        { itemsTotal := ← itemsTotal.asUInt64?
          ownersTotal := ← ownersTotal.asUInt64?
          floorPrice := ← floorPrice.asAmount?
          volumeTraded := ← volumeTraded.asAmount?
          attributes := ← (← attributes.asList?).mapM AttributeCount.ofJson? }
  | _ => none

end CollectionStatistics

namespace Token

def toJson (token : Token) : Json :=
  .record [("owner_id", .int token.ownerId.toInt), ("attributes", .text token.attributes)]

def ofJson? (value : Json) : Option Token := do
  match ← value.asRecord? ["owner_id", "attributes"] with
  | [ownerId, attributes] =>
      some { ownerId := ← ownerId.asInt64?, attributes := ← attributes.asText? }
  | _ => none

end Token

end MarketStats
