import MarketStats.Json.Decode

/-!
# Marketplace transactions

A transaction is a priced event of one collection: somebody bought a token, or
listed it for sale, or withdrew the listing.
-/

namespace MarketStats

/-- The kinds of marketplace events. -/
inductive TransactionKind
  | buy
  | list
  | withdraw
deriving DecidableEq, Repr

/-- One priced marketplace event. -/
structure Transaction where
  collectionId : Int64
  kind : TransactionKind
  price : Decimal
  timestamp : Calendar.Instant
deriving DecidableEq

namespace TransactionKind

def name : TransactionKind → String
  | .buy => "buy"
  | .list => "list"
  | .withdraw => "withdraw"

def ofName? (name : String) : Option TransactionKind :=
  if name = "buy" then some .buy
  else if name = "list" then some .list
  else if name = "withdraw" then some .withdraw
  else none

def toJson (kind : TransactionKind) : Json :=
  .text kind.name

def ofJson? (value : Json) : Option TransactionKind :=
  value.asChoice?.bind ofName?

end TransactionKind

namespace Transaction

def toJson (transaction : Transaction) : Json :=
  .record
    [("collection_id", .int transaction.collectionId.toInt),
      ("tx_type", transaction.kind.toJson),
      ("price", .text transaction.price.toText),
      ("timestamp", .text transaction.timestamp.toText)]

def ofJson? (value : Json) : Option Transaction := do
  match ← value.asRecord? ["collection_id", "tx_type", "price", "timestamp"] with
  | [collectionId, kind, price, timestamp] =>
      some
        { collectionId := ← collectionId.asInt64?
          kind := ← TransactionKind.ofJson? kind
          price := ← price.asAmount?
          timestamp := ← timestamp.asInstant? }
  | _ => none

end Transaction

end MarketStats
