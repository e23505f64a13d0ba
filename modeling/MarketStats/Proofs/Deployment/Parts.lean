import MarketStats.Proofs.Operation
import MarketStats.Statistics.Lease

/-!
# The parts of an operation

Every operation is put together from requests, from searches for mappings, and
from counts.  What passes from these parts to the whole is followed through each
operation once, whatever it is.
-/

namespace MarketStats

/-- A request that leaves the marketplace store as it is. -/
def MarketRequest.Reads (request : MarketRequest) : Prop :=
  ∀ market pageCap, (Marketplace.perform market pageCap request).2 = market

/-- The keys of the entries that are kept of a collection. -/
def entryKeys (tokenId : String) : List String :=
  [statisticsKey tokenId, claimKey tokenId]

/-- What the shared tier may be asked in the name of a collection. -/
inductive SharedRequest.Concerns (tokenId : String) : SharedRequest → Prop
  | get {key : String} (own : key ∈ entryKeys tokenId) : Concerns tokenId (.get key)
  | keep {key : String} (own : key ∈ entryKeys tokenId) (value : String) :
      Concerns tokenId (.keep key value)
  | claim {key : String} (own : key ∈ entryKeys tokenId) (value : String) (lifetime : Nat) :
      Concerns tokenId (.claim key value lifetime)
  | removeAll {keys : List String} (own : ∀ key ∈ keys, key ∈ entryKeys tokenId) :
      Concerns tokenId (.removeAll keys)
  | rank (key : String) (score : Double) : Concerns tokenId (.rank key tokenId score)

namespace Operation

/-- A property that passes from the parts of an operation to the whole, as long
as the parts are requests of some sort and searches for some mappings. -/
structure Composes (requests : Request → Prop) (tokenIds : String → Prop)
    (property : ∀ {α : Type}, Operation α → Prop) : Prop where
  pure : ∀ {α : Type} (value : α), property (Pure.pure value : Operation α)
  fail : ∀ {α : Type} (cause : StatsError), property (Operation.fail cause : Operation α)
  bind : ∀ {α β : Type} {first : Operation α} {second : α → Operation β}, property first →
    (∀ value, property (second value)) → property (first >>= second)
  attempt : ∀ {α : Type} {operation : Operation α}, property operation →
    property (Operation.attempt operation)
  count : ∀ increase, property (Operation.count increase)
  askMarket : ∀ {request}, requests (.market request) → property (Operation.askMarket request)
  askShared : ∀ {request}, requests (.shared request) → property (Operation.askShared request)
  lookup : ∀ {tokenId}, tokenIds tokenId → property (Operation.lookup tokenId)
  /-- What goes on with the marketplace store as it is now. -/
  seeMarket : ∀ {α : Type} (next : Marketplace → Operation α),
    (∀ market, property (next market)) →
      property (get >>= fun deployment => next deployment.market)

/-- A relation that chains holds within an operation if it holds within its
parts. -/
theorem Chains.composes {relation : Deployment → Deployment → Prop} (chains : Chains relation)
    {requests : Request → Prop} {tokenIds : String → Prop}
    (blind : ∀ deployment counters, relation deployment { deployment with counters })
    (market : ∀ {request}, requests (.market request) → Within relation (askMarket request))
    (shared : ∀ {request}, requests (.shared request) → Within relation (askShared request))
    (mapping : ∀ {tokenId}, tokenIds tokenId → Within relation (lookup tokenId)) :
    Composes requests tokenIds (Within relation) where
  pure := .pure chains
  fail := .fail chains
  bind := .bind chains
  attempt := .attempt
  count := .count blind
  askMarket := market
  askShared := shared
  lookup := mapping
  seeMarket _ within deployment := within deployment.market deployment

namespace Composes

variable {requests : Request → Prop} {tokenIds : String → Prop}
variable {property : ∀ {α : Type}, Operation α → Prop}
variable (composes : Composes requests tokenIds property)

include composes

section Statistics

variable (market : ∀ request : MarketRequest, request.Reads → requests (.market request))

include market

theorem readPages (collectionId : Int64) (limit bound offset : Nat) :
    property (Operation.readPages collectionId limit bound offset) := by
  induction bound generalizing offset with
  | zero => exact composes.pure _
  | succ bound ih =>
      unfold Operation.readPages
      refine composes.bind (composes.askMarket (market _ fun _ _ => rfl)) fun tokens => ?_
      dsimp only
      split
      · exact composes.pure _
      · exact composes.bind (ih _) fun _ => composes.pure _

theorem readTokens (collectionId : Int64) (batchSize : Nat) :
    property (Operation.readTokens collectionId batchSize) :=
  composes.seeMarket
    (fun held => Operation.readPages collectionId (pageLimit batchSize)
      ((held.tokensOf collectionId).length + 1) 0)
    fun _ => composes.readPages market collectionId _ _ _

theorem computeStatistics (collectionId : Int64) (batchSize : Nat) :
    property (Operation.computeStatistics collectionId batchSize) :=
  composes.bind (composes.askMarket (market _ fun _ _ => rfl)) fun _ =>
    composes.bind (composes.askMarket (market _ fun _ _ => rfl)) fun _ =>
      composes.bind (composes.bind (composes.readTokens market _ _) fun _ => composes.pure _)
        fun _ => composes.pure _

end Statistics

theorem readStatistics {tokenId : String}
    (own : requests (.shared (.get (statisticsKey tokenId)))) :
    property (Operation.readStatistics tokenId) := by
  unfold Operation.readStatistics
  refine composes.bind (composes.askShared own) fun found => ?_
  cases found with
  | none => exact composes.fail _
  | some written =>
      dsimp only
      split
      · exact composes.pure _
      · exact composes.fail _

theorem cachedStatistics {tokenId : String}
    (own : requests (.shared (.get (statisticsKey tokenId)))) :
    property (Operation.cachedStatistics tokenId) := by
  unfold Operation.cachedStatistics
  refine composes.bind (composes.attempt (composes.readStatistics own)) fun outcome => ?_
  cases outcome with
  | ok statistics => exact composes.pure _
  | error cause =>
      dsimp only
      split
      · exact composes.bind (composes.count _) fun _ => composes.fail cause
      · exact composes.fail cause

theorem writeScores {tokenId : String} (statistics : CollectionStatistics)
    (own : ∀ key score, requests (.shared (.rank key tokenId score)))
    (dimensions : List LeaderboardDimension) :
    property (Operation.writeScores tokenId statistics dimensions) := by
  induction dimensions with
  | nil => exact composes.pure _
  | cons dimension rest ih => exact composes.bind (composes.askShared (own _ _)) fun _ => ih

section Calls

variable {tokenId : String}
variable (shared : ∀ request : SharedRequest, request.Concerns tokenId →
  requests (.shared request))

include shared

theorem claim (settings : LeaseSettings) : property (Operation.claim settings tokenId) := by
  unfold Operation.claim
  refine composes.bind (composes.attempt (composes.askShared
    (shared _ (.claim (List.mem_cons_of_mem _ List.mem_cons_self) _ _)))) ?_
  rintro (_ | _)
  · exact composes.pure _
  · exact composes.pure _

/-- A call for statistics asks in the name of its collection only. -/
theorem getStatistics (settings : LeaseSettings)
    (market : ∀ request : MarketRequest, request.Reads → requests (.market request))
    (mapping : tokenIds tokenId) : property (Operation.getStatistics settings tokenId) := by
  unfold Operation.getStatistics
  refine composes.bind (composes.claim shared settings) fun won => ?_
  cases won with
  | true =>
      exact composes.bind (composes.lookup mapping) fun _ =>
        composes.bind (composes.computeStatistics market _ _) fun _ =>
          composes.bind (composes.writeScores _ (fun _ _ => shared _ (.rank _ _)) _) fun _ =>
            composes.bind (composes.askShared (shared _ (.keep List.mem_cons_self _)))
              fun _ => composes.bind (composes.count _) fun _ => composes.pure _
  | false =>
      exact composes.bind (composes.count _) fun _ =>
        composes.cachedStatistics (shared _ (.get List.mem_cons_self))

theorem invalidate : property (Operation.invalidate tokenId) :=
  composes.askShared (shared _ (.removeAll fun _ listed => listed))

end Calls

section Listing

variable (mapping : ∀ tokenId, tokenIds tokenId)
variable (reads : ∀ tokenId, requests (.shared (.get (statisticsKey tokenId))))

include mapping reads

theorem readEntry (tokenId : String) : property (Operation.readEntry tokenId) :=
  composes.bind (composes.lookup (mapping tokenId)) fun _ =>
    composes.bind (composes.readStatistics (reads tokenId)) fun _ => composes.pure _

theorem readEntries (tokenIds : List String) : property (Operation.readEntries tokenIds) := by
  induction tokenIds with
  | nil => exact composes.pure _
  | cons tokenId rest ih =>
      unfold Operation.readEntries
      refine composes.bind (composes.attempt (composes.readEntry mapping reads tokenId)) ?_
      rintro (_ | _)
      · exact composes.bind (composes.count _) fun _ => ih
      · exact composes.bind ih fun _ => composes.pure _

theorem leaderboard (request : String) (first last : Int) (descending : Bool)
    (ranked : ∀ key, requests (.shared (.ranked key first last descending))) :
    property (Operation.leaderboard request first last descending) := by
  unfold Operation.leaderboard
  split
  · exact composes.fail _
  · exact composes.bind (composes.askShared (ranked _)) fun _ =>
      composes.readEntries mapping reads _

end Listing

end Composes

end Operation

end MarketStats
