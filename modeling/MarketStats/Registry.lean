import MarketStats.Cache.Local
import MarketStats.Model.Collection
import MarketStats.Store.SideStore

/-!
# The registry of collections

The registry knows which collection an external token identifier stands for.
Mappings are kept for good in the side store; copies of those that were looked
up are in the local tier, and a write removes the copy of what it replaces.
The collection of a mapping never changes, only its name does.
-/

namespace MarketStats

/-- The side store and the local tier of one process. -/
structure Registry where
  store : SideStore
  copies : LocalTier

namespace Registry

def bucketName : String := "collections"

def copyKey (tokenId : String) : String :=
  "collection_info:" ++ tokenId

/-- The error for a mapping with fields outside their limits. -/
def faulty (info : CollectionInfo) : StatsError :=
  .validation info.faultText

/-- The error for a token identifier that stands for another collection. -/
def alreadyMapped (tokenId : String) (collectionId : Int64) : StatsError :=
  .validation (tokenId ++ " is already mapped to collection " ++ collectionId.toInt.repr)

def stored (registry : Registry) (tokenId : String) : Except StatsError CollectionInfo :=
  registry.store.getJson CollectionInfo.ofJson? bucketName tokenId

def copy? (registry : Registry) (now : Nat) (tokenId : String) : Option CollectionInfo :=
  (registry.copies.get? now (copyKey tokenId)).bind fun written =>
    Json.decode? CollectionInfo.ofJson? (Text.ofString written)

def write (registry : Registry) (info : CollectionInfo) : Registry :=
  { store := registry.store.putJson bucketName info.tokenId info.toJson
    copies := registry.copies.remove (copyKey info.tokenId) }

/-- Put a copy of a mapping into the local tier, which need not keep it. -/
def remember (registry : Registry) (now : Nat) (tokenId : String) (info : CollectionInfo) :
    Registry :=
  { registry with
    copies :=
      (registry.copies.putChecked now (copyKey tokenId) info.toJson.toText
        registry.copies.defaultLifetime).2 }

/-- Create a mapping, or correct the name of the one that exists. -/
def register (registry : Registry) (info : CollectionInfo) :
    Except StatsError CollectionInfo × Registry :=
  if info.isValid then
    match registry.stored info.tokenId with
    | .ok existing =>
        if existing.collectionId ≠ info.collectionId then
          (.error (alreadyMapped info.tokenId existing.collectionId), registry)
        else if existing = info then
          (.ok existing, registry)
        else
          (.ok info, registry.write info)
    | .error cause =>
        if cause.isNotFound then (.ok info, registry.write info) else (.error cause, registry)
  else
    (.error (faulty info), registry)

def rename (registry : Registry) (tokenId name : String) :
    Except StatsError CollectionInfo × Registry :=
  match registry.stored tokenId with
  | .ok existing =>
      registry.register { tokenId, collectionId := existing.collectionId, name }
  | .error cause => (.error cause, registry)

/-- Find the mapping of a token identifier, in the local tier first. -/
def lookup (registry : Registry) (now : Nat) (tokenId : String) :
    Except StatsError CollectionInfo × Registry :=
  match registry.copy? now tokenId with
  | some info => (.ok info, registry)
  | none =>
      match registry.stored tokenId with
      | .ok info => (.ok info, registry.remember now tokenId info)
      | .error cause => (.error cause, registry)

/-- All mappings, ordered by the bytes of their token identifiers. -/
def list (registry : Registry) : Except StatsError (List CollectionInfo) :=
  registry.store.values CollectionInfo.ofJson? bucketName

/-- The registry of a new process: the side store is opened again, and the
local tier is empty. -/
def reopen (registry : Registry) : Registry :=
  { registry with copies := .empty registry.copies.budget registry.copies.defaultLifetime }

@[simp]
theorem store_remember (registry : Registry) (now : Nat) (tokenId : String)
    (info : CollectionInfo) : (registry.remember now tokenId info).store = registry.store := by
  simp only [remember]

@[simp]
theorem store_reopen (registry : Registry) : registry.reopen.store = registry.store := by
  simp only [reopen]

theorem store_lookup (registry : Registry) (now : Nat) (tokenId : String) :
    (registry.lookup now tokenId).2.store = registry.store := by
  cases copied : registry.copy? now tokenId with
  | some info => simp [lookup, copied]
  | none =>
      cases found : registry.stored tokenId with
      | ok info => simp [lookup, copied, found]
      | error cause => simp [lookup, copied, found]

end Registry

end MarketStats
