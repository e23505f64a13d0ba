import MarketStats.Model.Volume
import MarketStats.Proofs.HourBucket
import MarketStats.Proofs.Model.Statistics

/-!
# Reading back hourly volumes

An hour is written as its key, and a row of volumes with the key of its hour.
Both are read back when the hour does not lie in front of year zero, and no
other hours are read.
-/

namespace MarketStats

namespace VolumeScope

theorem isWritable_toJson (scope : VolumeScope) : scope.toJson.IsWritable := by
  cases scope with
  | global => exact Json.isWritable_text _
  | collection collectionId =>
      apply Json.isWritable_record
      simp only [List.forall_mem_cons]
      exact ⟨Json.isWritable_int _, List.forall_mem_nil _⟩

theorem ofJson?_toJson (scope : VolumeScope) : ofJson? scope.toJson = some scope := by
  cases scope with
  | global => rfl
  | collection collectionId =>
      change (Json.int collectionId.toInt).asInt64?.map VolumeScope.collection = _
      rw [Json.asInt64?_int, Option.map_some]

end VolumeScope

namespace HourBucket

/-- The hour does not lie in front of year zero, where keys are negative. -/
def IsKeyed (hour : HourBucket) : Prop :=
  0 ≤ hour.date.year

instance (hour : HourBucket) : Decidable hour.IsKeyed :=
  inferInstanceAs (Decidable (0 ≤ hour.date.year))

theorem isWritable_toJson (hour : HourBucket) : hour.toJson.IsWritable :=
  Json.isWritable_int _

theorem ofJson?_toJson {hour : HourBucket} (keyed : hour.IsKeyed) :
    ofJson? hour.toJson = some hour := by
  have nonneg := hour.key_nonneg_iff.mpr keyed
  have small := hour.key_lt
  have inRange : (Int64.ofInt hour.key).toInt = hour.key :=
    Int64.toInt_ofInt_of_le (by omega) small
  have taken := Json.asInt64?_int (Int64.ofInt hour.key)
  rw [inRange] at taken
  unfold ofJson? toJson
  rw [taken, Option.bind_some, inRange, hour.ofKey?_key keyed]

theorem isKeyed_of_ofJson? {value : Json} {hour : HourBucket} (read : ofJson? value = some hour) :
    hour.IsKeyed := by
  obtain ⟨key, _, found⟩ := Option.bind_eq_some_iff.mp read
  exact year_nonneg_of_ofKey? found

end HourBucket

namespace HourlyVolume

/-- The row without the signs of volumes that are zero. -/
def withoutZeroSigns (row : HourlyVolume) : HourlyVolume :=
  { row with
    buyVolume := row.buyVolume.withoutZeroSign
    listVolume := row.listVolume.withoutZeroSign
    withdrawVolume := row.withdrawVolume.withoutZeroSign }

theorem withoutZeroSigns_withoutZeroSigns (row : HourlyVolume) :
    row.withoutZeroSigns.withoutZeroSigns = row.withoutZeroSigns := by
  simp [withoutZeroSigns]

theorem isWritable_toJson (row : HourlyVolume) : row.toJson.IsWritable := by
  apply Json.isWritable_record
  simp only [List.forall_mem_cons]
  exact ⟨row.scope.isWritable_toJson, row.hour.isWritable_toJson, Json.isWritable_text _,
    Json.isWritable_text _, Json.isWritable_text _, List.forall_mem_nil _⟩

theorem ofJson?_toJson {row : HourlyVolume} (keyed : row.hour.IsKeyed) :
    ofJson? row.toJson = some row.withoutZeroSigns := by
  have fields : row.toJson.asRecord?
      ["scope", "hour", "buyVolume", "listVolume", "withdrawVolume"] =
      some [row.scope.toJson, row.hour.toJson, .text row.buyVolume.toText,
        .text row.listVolume.toText, .text row.withdrawVolume.toText] :=
    Json.asRecord?_record rfl (by decide)
  unfold ofJson?
  rw [fields]
  simp only [Option.bind_eq_bind, Option.bind_some, VolumeScope.ofJson?_toJson,
    HourBucket.ofJson?_toJson keyed, Json.asAmount?_toText]
  rfl

theorem isKeyed_of_ofJson? {value : Json} {row : HourlyVolume} (read : ofJson? value = some row) :
    row.hour.IsKeyed := by
  obtain ⟨fields, _, read⟩ := Option.bind_eq_some_iff.mp read
  split at read
  · obtain ⟨_, _, read⟩ := Option.bind_eq_some_iff.mp read
    obtain ⟨hour, isHour, read⟩ := Option.bind_eq_some_iff.mp read
    obtain ⟨_, _, read⟩ := Option.bind_eq_some_iff.mp read
    obtain ⟨_, _, read⟩ := Option.bind_eq_some_iff.mp read
    obtain ⟨_, _, read⟩ := Option.bind_eq_some_iff.mp read
    cases read
    exact HourBucket.isKeyed_of_ofJson? isHour
  · cases read

end HourlyVolume

end MarketStats
