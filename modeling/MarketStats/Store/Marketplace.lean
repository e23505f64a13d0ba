import MarketStats.Decimal.Sum
import MarketStats.Model.Statistics
import MarketStats.Model.Transaction
import MarketStats.Model.Volume
import Std.Data.TreeMap
import Std.Data.TreeSet

/-!
# The marketplace store

The store holds the transactions in the order in which they were recorded, the
tokens of each collection in the order in which they were added, and at most
one volume row for each scope and hour.
-/

namespace MarketStats

/-- Rows are ordered by scope and then by hour. -/
abbrev rowOrder : VolumeScope × HourBucket → VolumeScope × HourBucket → Ordering :=
  compareLex (compareOn Prod.fst) (compareOn Prod.snd)

instance : Std.LawfulEqCmp rowOrder where
  eq_of_compare {first second} equal := by
    have ⟨scopes, hours⟩ := Ordering.then_eq_eq.mp equal
    exact Prod.ext (Std.LawfulEqOrd.eq_of_compare scopes) (Std.LawfulEqOrd.eq_of_compare hours)

/-- Transactions, tokens and volume rows. -/
structure Marketplace where
  transactions : List Transaction
  tokens : Std.TreeMap Int64 (List Token)
  rows : Std.TreeMap (VolumeScope × HourBucket) HourlyVolume rowOrder

namespace VolumeScope

def covers (scope : VolumeScope) (transaction : Transaction) : Bool :=
  match scope with
  | .global => true
  | .collection collectionId => transaction.collectionId == collectionId

end VolumeScope

namespace Marketplace

def empty : Marketplace :=
  { transactions := [], tokens := {}, rows := {} }

def record (market : Marketplace) (transaction : Transaction) : Marketplace :=
  { market with transactions := market.transactions ++ [transaction] }

def tokensOf (market : Marketplace) (collectionId : Int64) : List Token :=
  market.tokens.getD collectionId []

def addToken (market : Marketplace) (collectionId : Int64) (token : Token) : Marketplace :=
  { market with
    tokens := market.tokens.insert collectionId (market.tokensOf collectionId ++ [token]) }

def buyPrices (market : Marketplace) (collectionId : Int64) : List Decimal :=
  (market.transactions.filter fun transaction =>
    transaction.collectionId == collectionId && transaction.kind == .buy).map Transaction.price

def leastBuyPrice? (market : Marketplace) (collectionId : Int64) : Option Decimal :=
  Decimal.least? (market.buyPrices collectionId)

/-- The sum of the prices paid in a collection, unless it overflows. -/
def buyVolume? (market : Marketplace) (collectionId : Int64) : Option Decimal :=
  Decimal.sum? (market.buyPrices collectionId)

/-- Up to `limit` tokens of a collection behind the first `offset` ones. -/
def page (market : Marketplace) (collectionId : Int64) (offset limit : Nat) : List Token :=
  ((market.tokensOf collectionId).drop offset).take limit

/-- The prices of the transactions of one kind that a scope covers from
`start` until just before `finish`. -/
def pricesInRange (market : Marketplace) (scope : VolumeScope)
    (start finish : Calendar.Instant) (kind : TransactionKind) : List Decimal :=
  (market.transactions.filter fun transaction =>
    scope.covers transaction && transaction.kind == kind
      && decide (start ≤ transaction.timestamp) && decide (transaction.timestamp < finish)).map
    Transaction.price

/-- The sum of the prices in a range, unless it overflows. -/
def volumeInRange? (market : Marketplace) (scope : VolumeScope)
    (start finish : Calendar.Instant) (kind : TransactionKind) : Option Decimal :=
  Decimal.sum? (market.pricesInRange scope start finish kind)

/-- The collections with a token or a transaction, in increasing order. -/
def collectionIds (market : Marketplace) : List Int64 :=
  (Std.TreeSet.ofList
    (market.tokens.keys ++ market.transactions.map Transaction.collectionId)).toList

def row? (market : Marketplace) (scope : VolumeScope) (hour : HourBucket) :
    Option HourlyVolume :=
  market.rows[(scope, hour)]?

def hasRow (market : Marketplace) (scope : VolumeScope) (hour : HourBucket) : Bool :=
  (market.row? scope hour).isSome

def putRow (market : Marketplace) (row : HourlyVolume) : Marketplace :=
  { market with rows := market.rows.insert (row.scope, row.hour) row }

/-- All rows of a scope, by increasing hour. -/
def rowsOf (market : Marketplace) (scope : VolumeScope) : List HourlyVolume :=
  (market.rows.toList.filter fun entry => entry.1.1 == scope).map Prod.snd

/-- The rows of a scope from one hour to another, both included.  A range that
is turned around has no answer once the store holds a row. -/
def rowsBetween? (market : Marketplace) (scope : VolumeScope) (first last : HourBucket) :
    Option (List HourlyVolume) :=
  if first ≤ last then
    some ((market.rows.toList.filter fun entry =>
      entry.1.1 == scope && decide (first ≤ entry.1.2) && decide (entry.1.2 ≤ last)).map Prod.snd)
  else if market.rows.isEmpty then
    some []
  else
    none

theorem row?_putRow (market : Marketplace) (row : HourlyVolume) (scope : VolumeScope)
    (hour : HourBucket) :
    (market.putRow row).row? scope hour =
      if row.scope = scope ∧ row.hour = hour then some row else market.row? scope hour := by
  simp only [row?, putRow, Std.TreeMap.getElem?_insert, Std.LawfulEqCmp.compare_eq_iff_eq,
    Prod.mk.injEq]

@[simp]
theorem row?_record (market : Marketplace) (transaction : Transaction) (scope : VolumeScope)
    (hour : HourBucket) :
    (market.record transaction).row? scope hour = market.row? scope hour := rfl

@[simp]
theorem row?_addToken (market : Marketplace) (collectionId : Int64) (token : Token)
    (scope : VolumeScope) (hour : HourBucket) :
    (market.addToken collectionId token).row? scope hour = market.row? scope hour := rfl

@[simp]
theorem transactions_putRow (market : Marketplace) (row : HourlyVolume) :
    (market.putRow row).transactions = market.transactions := rfl

@[simp]
theorem tokens_putRow (market : Marketplace) (row : HourlyVolume) :
    (market.putRow row).tokens = market.tokens := rfl

theorem tokensOf_addToken (market : Marketplace) (collectionId other : Int64) (token : Token) :
    (market.addToken collectionId token).tokensOf other =
      if collectionId = other then market.tokensOf collectionId ++ [token]
      else market.tokensOf other := by
  simp only [tokensOf, addToken, Std.TreeMap.getD_insert, Std.LawfulEqCmp.compare_eq_iff_eq]

end Marketplace

end MarketStats
