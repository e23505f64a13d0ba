import MarketStats.HourBucket
import MarketStats.Json.Decode

/-!
# Hourly volumes

A volume row holds the prices bought, listed and withdrawn in one hour, either
of the whole marketplace or of one collection.
-/

namespace MarketStats

/-- What a volume row covers. -/
inductive VolumeScope
  | global
  | collection (collectionId : Int64)
deriving DecidableEq, Repr

/-- The volumes of one scope in one hour. -/
structure HourlyVolume where
  scope : VolumeScope
  hour : HourBucket
  buyVolume : Decimal
  listVolume : Decimal
  withdrawVolume : Decimal
deriving DecidableEq

namespace VolumeScope

/-- The collection of a scope, if it covers only one. -/
def collection? : VolumeScope → Option Int64
  | .global => none
  | .collection collectionId => some collectionId

def label : VolumeScope → String
  | .global => "global"
  | .collection _ => "collection"

def toText : VolumeScope → String
  | .global => "global"
  | .collection collectionId =>
      "collection:" ++ String.ofList (NumberText.ofInt collectionId.toInt).toChars

/-- The whole marketplace comes first, then the collections by number. -/
instance : Ord VolumeScope where
  compare first second := compare first.collection? second.collection?

instance : Std.TransOrd VolumeScope :=
  inferInstanceAs (Std.TransCmp (compareOn VolumeScope.collection?))

instance : Std.LawfulEqOrd VolumeScope where
  eq_of_compare {first second} equal := by
    have same := Std.LawfulEqOrd.eq_of_compare (α := Option Int64) equal
    cases first <;> cases second <;> simp_all [collection?]

def toJson : VolumeScope → Json
  | .global => .text "global"
  | .collection collectionId => .record [("collection", .int collectionId.toInt)]

def ofJson? : Json → Option VolumeScope
  | .object [(some "collection", collectionId)] =>
      collectionId.asInt64?.map VolumeScope.collection
  | value => value.asChoice?.bind fun name => if name = "global" then some .global else none

end VolumeScope

namespace HourBucket

instance : Std.TransOrd HourBucket :=
  inferInstanceAs (Std.TransCmp (compareOn HourBucket.index))

instance : Std.LawfulEqOrd HourBucket where
  eq_of_compare equal :=
    eq_of_index_eq (Std.LawfulEqOrd.eq_of_compare (α := Int) equal)

def toJson (hour : HourBucket) : Json :=
  .int hour.key

def ofJson? (value : Json) : Option HourBucket :=
  value.asInt64?.bind fun key => ofKey? key.toInt

end HourBucket

namespace HourlyVolume

def toJson (row : HourlyVolume) : Json :=
  .record
    [("scope", row.scope.toJson),
      ("hour", row.hour.toJson),
      ("buyVolume", .text row.buyVolume.toText),
      ("listVolume", .text row.listVolume.toText),
      ("withdrawVolume", .text row.withdrawVolume.toText)]

def ofJson? (value : Json) : Option HourlyVolume := do
  match ← value.asRecord? ["scope", "hour", "buyVolume", "listVolume", "withdrawVolume"] with
  | [scope, hour, buyVolume, listVolume, withdrawVolume] =>
      some
        { scope := ← VolumeScope.ofJson? scope
          hour := ← HourBucket.ofJson? hour
          buyVolume := ← buyVolume.asAmount?
          listVolume := ← listVolume.asAmount?
          withdrawVolume := ← withdrawVolume.asAmount? }
  | _ => none

end HourlyVolume

end MarketStats
