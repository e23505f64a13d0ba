import MarketStats.Failure
import MarketStats.Store.Marketplace

/-!
# Requests to the marketplace store

The service uses the marketplace store through requests, and every request has
an answer of its own type.  A request breaks off when an amount overflows or
when the range that it asks for is turned around.
-/

namespace MarketStats

/-- What the marketplace store can be asked to do. -/
inductive MarketRequest
  | leastBuyPrice (collectionId : Int64)
  | buyVolume (collectionId : Int64)
  | page (collectionId : Int64) (offset limit : Nat)
  | hasRow (scope : VolumeScope) (hour : HourBucket)
  | putRow (row : HourlyVolume)
  | volumeInRange (scope : VolumeScope) (start finish : Calendar.Instant)
      (kind : TransactionKind)
  | collectionIds
  | rowsBetween (scope : VolumeScope) (first last : HourBucket)
deriving DecidableEq

namespace MarketRequest

/-- The type of the answer to a request. -/
abbrev Answer : MarketRequest → Type
  | .leastBuyPrice _ => Option Decimal
  | .buyVolume _ => Decimal
  | .page _ _ _ => List Token
  | .hasRow _ _ => Bool
  | .putRow _ => Unit
  | .volumeInRange _ _ _ _ => Decimal
  | .collectionIds => List Int64
  | .rowsBetween _ _ _ => List HourlyVolume

def rowLabel (scope : VolumeScope) (hour : HourBucket) : String :=
  scope.toText ++ " " ++ hour.key.repr

def label : MarketRequest → String
  | .leastBuyPrice collectionId => collectionId.toInt.repr
  | .buyVolume collectionId => collectionId.toInt.repr
  | .page collectionId _ _ => collectionId.toInt.repr
  | .hasRow scope hour => rowLabel scope hour
  | .putRow row => rowLabel row.scope row.hour
  | .volumeInRange scope _ _ kind => kind.name ++ " " ++ scope.toText
  | .collectionIds => ""
  | .rowsBetween scope _ _ => scope.toText

end MarketRequest

namespace Marketplace

/-- The number of tokens of a page: what was asked for, within the bound that
the store sets for its pages. -/
def pageSize (pageCap : Option Nat) (limit : Nat) : Nat :=
  match pageCap with
  | none => limit
  | some cap => min limit cap

/-- An amount, or the failure that there is none. -/
def amount : Option Decimal → Except Failure Decimal
  | some value => .ok value
  | none => .error .amountOverflow

/-- Answer a request; a page never has more tokens than the bound allows. -/
def perform (market : Marketplace) (pageCap : Option Nat) :
    (request : MarketRequest) → Except Failure request.Answer × Marketplace
  | .leastBuyPrice collectionId => (.ok (market.leastBuyPrice? collectionId), market)
  | .buyVolume collectionId => (amount (market.buyVolume? collectionId), market)
  | .page collectionId offset limit =>
      (.ok (market.page collectionId offset (pageSize pageCap limit)), market)
  | .hasRow scope hour => (.ok (market.hasRow scope hour), market)
  | .putRow row => (.ok (), market.putRow row)
  | .volumeInRange scope start finish kind =>
      (amount (market.volumeInRange? scope start finish kind), market)
  | .collectionIds => (.ok market.collectionIds, market)
  | .rowsBetween scope first last =>
      (match market.rowsBetween? scope first last with
        | some rows => .ok rows
        | none => .error .invertedRange,
        market)

end Marketplace

end MarketStats
