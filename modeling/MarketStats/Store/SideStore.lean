import MarketStats.Failure
import MarketStats.Json.Decode
import Std.Data.TreeMap

/-!
# The side store

The side store keeps small values for good, in named buckets.  A bucket exists
from its first value on, and its keys are ordered byte by byte.
-/

namespace MarketStats

/-- Named buckets of values under keys. -/
structure SideStore where
  buckets : Std.TreeMap String (Std.TreeMap String Text.RawText)

namespace SideStore

def empty : SideStore :=
  { buckets := {} }

def bucket (store : SideStore) (bucketName : String) : Std.TreeMap String Text.RawText :=
  store.buckets.getD bucketName {}

def put (store : SideStore) (bucketName key : String) (value : Text.RawText) : SideStore :=
  { buckets := store.buckets.insert bucketName ((store.bucket bucketName).insert key value) }

def get? (store : SideStore) (bucketName key : String) : Option Text.RawText :=
  (store.bucket bucketName)[key]?

def place (bucketName key : String) : String :=
  bucketName ++ "/" ++ key

/-- The value under a key, or an error that names its place. -/
def get (store : SideStore) (bucketName key : String) : Except StatsError Text.RawText :=
  match store.get? bucketName key with
  | some value => .ok value
  | none => .error (.notFound (place bucketName key))

def putJson (store : SideStore) (bucketName key : String) (value : Json) : SideStore :=
  store.put bucketName key (Text.ofChars value.toChars)

def readJson {α : Type} (take : Json → Option α) (value : Text.RawText) : Except StatsError α :=
  match Json.decode? take value with
  | some content => .ok content
  | none => .error .unreadable

/-- The value under a key, taken apart. -/
def getJson {α : Type} (store : SideStore) (take : Json → Option α) (bucketName key : String) :
    Except StatsError α :=
  (store.get bucketName key).bind (readJson take)

/-- All values of a bucket in the order of their keys, taken apart. -/
def values {α : Type} (store : SideStore) (take : Json → Option α) (bucketName : String) :
    Except StatsError (List α) :=
  (store.bucket bucketName).values.mapM (readJson take)

theorem bucket_put (store : SideStore) (bucketName key : String) (value : Text.RawText)
    (other : String) :
    (store.put bucketName key value).bucket other =
      if bucketName = other then (store.bucket bucketName).insert key value
      else store.bucket other := by
  simp only [bucket, put, Std.TreeMap.getD_insert, Std.LawfulEqCmp.compare_eq_iff_eq]

theorem get?_put (store : SideStore) (bucketName key : String) (value : Text.RawText)
    (otherBucket otherKey : String) :
    (store.put bucketName key value).get? otherBucket otherKey =
      if bucketName = otherBucket ∧ key = otherKey then some value
      else store.get? otherBucket otherKey := by
  simp only [get?, bucket_put]
  by_cases sameBucket : bucketName = otherBucket
  · subst sameBucket
    simp [Std.TreeMap.getElem?_insert, Std.LawfulEqCmp.compare_eq_iff_eq]
  · simp [sameBucket]

end SideStore

end MarketStats
