import MarketStats.Cache.Shared
import MarketStats.Store.MarketRequest

/-!
# Outages

A backend may be out of reach for some of the requests made to it.  An outage
names the endpoint that it strikes, and how the labels of the requests begin
that it counts.  It lets the first ones pass, then makes some or all of the
following ones fail.
-/

namespace MarketStats

/-- A request to the marketplace store or to the shared tier. -/
inductive Request
  | market (request : MarketRequest)
  | shared (request : SharedRequest)
deriving DecidableEq

/-- The kinds of requests, as outages tell them apart. -/
inductive Endpoint
  | leastBuyPrice
  | buyVolume
  | page
  | hasRow
  | putRow
  | volumeInRange
  | collectionIds
  | rowsBetween
  | get
  | put
  | keep
  | remove
  | removeAll
  | claim
  | rank
  | ranked
deriving DecidableEq, Repr

/-- An outage of an endpoint: how many requests it still lets pass, and how
many it then makes fail, where none stands for all. -/
structure Outage where
  endpoint : Endpoint
  labelStart : String
  skip : Nat
  remaining : Option Nat
deriving DecidableEq, Repr

namespace Request

def endpoint : Request → Endpoint
  | .market (.leastBuyPrice _) => .leastBuyPrice
  | .market (.buyVolume _) => .buyVolume
  | .market (.page _ _ _) => .page
  | .market (.hasRow _ _) => .hasRow
  | .market (.putRow _) => .putRow
  | .market (.volumeInRange _ _ _ _) => .volumeInRange
  | .market .collectionIds => .collectionIds
  | .market (.rowsBetween _ _ _) => .rowsBetween
  | .shared (.get _) => .get
  | .shared (.put _ _ _) => .put
  | .shared (.keep _ _) => .keep
  | .shared (.remove _) => .remove
  | .shared (.removeAll _) => .removeAll
  | .shared (.claim _ _ _) => .claim
  | .shared (.rank _ _ _) => .rank
  | .shared (.ranked _ _ _ _) => .ranked

def label : Request → String
  | .market request => request.label
  | .shared request => request.label

def isMarket : Request → Bool
  | .market _ => true
  | .shared _ => false

end Request

namespace Endpoint

def all : List Endpoint :=
  [.leastBuyPrice, .buyVolume, .page, .hasRow, .putRow, .volumeInRange, .collectionIds,
    .rowsBetween, .get, .put, .keep, .remove, .removeAll, .claim, .rank, .ranked]

def name : Endpoint → String
  | .leastBuyPrice => "min_buy"
  | .buyVolume => "sum_buy"
  | .page => "page"
  | .hasRow => "exists"
  | .putRow => "upsert"
  | .volumeInRange => "sum_range"
  | .collectionIds => "collection_ids"
  | .rowsBetween => "hourly_volumes"
  | .get => "get"
  | .put => "set"
  | .keep => "set_no_expiry"
  | .remove => "delete"
  | .removeAll => "delete_many"
  | .claim => "set_nx"
  | .rank => "z_add"
  | .ranked => "z_range"

def ofName? (name : String) : Option Endpoint :=
  all.find? fun endpoint => endpoint.name == name

def outageError (endpoint : Endpoint) : StatsError :=
  .transient ("injected failure: " ++ endpoint.name)

end Endpoint

namespace Outage

def concerns (outage : Outage) (request : Request) : Bool :=
  outage.endpoint == request.endpoint
    && outage.labelStart.toList.isPrefixOf request.label.toList

/-- Let a request meet one outage: whether it fails, and what is left of the
outage. -/
def strike (outage : Outage) (request : Request) : Bool × Outage :=
  if outage.concerns request then
    if 0 < outage.skip then
      (false, { outage with skip := outage.skip - 1 })
    else
      match outage.remaining with
      | none => (true, outage)
      | some 0 => (false, outage)
      | some (remaining + 1) => (true, { outage with remaining := some remaining })
  else
    (false, outage)

/-- Let a request meet outages in their order, up to the one that makes it
fail: whether it fails, and what is left of the outages. -/
def strikeAll : List Outage → Request → Bool × List Outage
  | [], _ => (false, [])
  | outage :: rest, request =>
      match outage.strike request with
      | (true, left) => (true, left :: rest)
      | (false, left) =>
          let (fails, others) := strikeAll rest request
          (fails, left :: others)

@[simp]
theorem strikeAll_nil (request : Request) : strikeAll [] request = (false, []) := rfl

end Outage

end MarketStats
