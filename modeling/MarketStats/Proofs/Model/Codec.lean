import MarketStats.Proofs.Model.Collection
import MarketStats.Proofs.Model.Leaderboard
import MarketStats.Proofs.Model.Transaction
import MarketStats.Proofs.Model.Volume

/-!
# The types of the model as JSON texts

Whatever the model writes as a JSON text is read back, apart from the signs of
amounts that are zero and from hours in front of year zero.  The reader takes
more texts than are ever written.  Since it takes no text for an hour in front
of year zero, a value that was read once is read back however it was given,
and from the second time on nothing changes any more.
-/

namespace MarketStats

/-- What is written is read back in its settled form, and nothing but readable
values is read. -/
structure Json.ReadsBack {Value : Type} (toJson : Value → Json) (ofJson? : Json → Option Value)
    (Readable : Value → Prop) (settled : Value → Value) : Prop where
  isWritable : ∀ value, (toJson value).IsWritable
  ofJson?_toJson : ∀ value, Readable value → ofJson? (toJson value) = some (settled value)
  readable : ∀ json value, ofJson? json = some value → Readable value
  settled_settled : ∀ value, settled (settled value) = settled value

namespace Json.ReadsBack

variable {Value : Type} {toJson : Value → Json} {ofJson? : Json → Option Value}
  {Readable : Value → Prop} {settled : Value → Value}

/-- Of most types every value is readable. -/
theorem of_forall (isWritable : ∀ value, (toJson value).IsWritable)
    (readBack : ∀ value, ofJson? (toJson value) = some (settled value))
    (settled_settled : ∀ value, settled (settled value) = settled value) :
    ReadsBack toJson ofJson? (fun _ => True) settled :=
  ⟨isWritable, fun value _ => readBack value, fun _ _ _ => trivial, settled_settled⟩

variable (readsBack : ReadsBack toJson ofJson? Readable settled)

include readsBack

theorem decode?_toText {value : Value} (isReadable : Readable value) :
    decode? ofJson? (Text.ofString (toJson value).toText) = some (settled value) := by
  rw [Json.decode?_toText _ _ (readsBack.isWritable value),
    readsBack.ofJson?_toJson value isReadable]

/-- A settled value is read back as it is. -/
theorem decode?_toText_settled {value : Value} (isReadable : Readable value) :
    decode? ofJson? (Text.ofString (toJson (settled value)).toText) = some (settled value) := by
  have readable : Readable (settled value) :=
    readsBack.readable _ _ (readsBack.ofJson?_toJson value isReadable)
  rw [readsBack.decode?_toText readable, readsBack.settled_settled]

theorem readable_of_decode? {text : Text.RawText} {value : Value}
    (decoded : decode? ofJson? text = some value) : Readable value := by
  obtain ⟨json, _, taken⟩ := Option.bind_eq_some_iff.mp decoded
  exact readsBack.readable json value taken

end Json.ReadsBack

/-- The types of the values that are written as JSON texts. -/
inductive ModelType
  | collectionInfo
  | attributeCount
  | collectionStatistics
  | token
  | transactionKind
  | transaction
  | hourBucket
  | volumeScope
  | hourlyVolume
  | leaderboardDimension
  | leaderboardEntry

namespace ModelType

def Value : ModelType → Type
  | .collectionInfo => CollectionInfo
  | .attributeCount => AttributeCount
  | .collectionStatistics => CollectionStatistics
  | .token => Token
  | .transactionKind => TransactionKind
  | .transaction => Transaction
  | .hourBucket => HourBucket
  | .volumeScope => VolumeScope
  | .hourlyVolume => HourlyVolume
  | .leaderboardDimension => LeaderboardDimension
  | .leaderboardEntry => LeaderboardEntry

def toJson : (type : ModelType) → type.Value → Json
  | .collectionInfo => CollectionInfo.toJson
  | .attributeCount => AttributeCount.toJson
  | .collectionStatistics => CollectionStatistics.toJson
  | .token => Token.toJson
  | .transactionKind => TransactionKind.toJson
  | .transaction => Transaction.toJson
  | .hourBucket => HourBucket.toJson
  | .volumeScope => VolumeScope.toJson
  | .hourlyVolume => HourlyVolume.toJson
  | .leaderboardDimension => LeaderboardDimension.toJson
  | .leaderboardEntry => LeaderboardEntry.toJson

def ofJson? : (type : ModelType) → Json → Option type.Value
  | .collectionInfo => CollectionInfo.ofJson?
  | .attributeCount => AttributeCount.ofJson?
  | .collectionStatistics => CollectionStatistics.ofJson?
  | .token => Token.ofJson?
  | .transactionKind => TransactionKind.ofJson?
  | .transaction => Transaction.ofJson?
  | .hourBucket => HourBucket.ofJson?
  | .volumeScope => VolumeScope.ofJson?
  | .hourlyVolume => HourlyVolume.ofJson?
  | .leaderboardDimension => LeaderboardDimension.ofJson?
  | .leaderboardEntry => LeaderboardEntry.ofJson?

/-- If the value has an hour, it does not lie in front of year zero. -/
def IsKeyed : (type : ModelType) → type.Value → Prop
  | .hourBucket => HourBucket.IsKeyed
  | .hourlyVolume => fun row => row.hour.IsKeyed
  | _ => fun _ => True

/-- The value without the signs of amounts that are zero. -/
def withoutZeroSigns : (type : ModelType) → type.Value → type.Value
  | .collectionStatistics => CollectionStatistics.withoutZeroSigns
  | .transaction => Transaction.withoutZeroSigns
  | .hourlyVolume => HourlyVolume.withoutZeroSigns
  | .leaderboardEntry => LeaderboardEntry.withoutZeroSigns
  | _ => id

def encode (type : ModelType) (value : type.Value) : Text.RawText :=
  Text.ofString (type.toJson value).toText

def decode? (type : ModelType) (text : Text.RawText) : Option type.Value :=
  Json.decode? type.ofJson? text

theorem readsBack (type : ModelType) :
    Json.ReadsBack type.toJson type.ofJson? type.IsKeyed type.withoutZeroSigns := by
  cases type with
  | collectionInfo =>
      exact .of_forall CollectionInfo.isWritable_toJson CollectionInfo.ofJson?_toJson fun _ => rfl
  | attributeCount =>
      exact .of_forall AttributeCount.isWritable_toJson AttributeCount.ofJson?_toJson fun _ => rfl
  | collectionStatistics =>
      exact .of_forall CollectionStatistics.isWritable_toJson CollectionStatistics.ofJson?_toJson
        CollectionStatistics.withoutZeroSigns_withoutZeroSigns
  | token => exact .of_forall Token.isWritable_toJson Token.ofJson?_toJson fun _ => rfl
  | transactionKind =>
      exact .of_forall TransactionKind.isWritable_toJson TransactionKind.ofJson?_toJson
        fun _ => rfl
  | transaction =>
      exact .of_forall Transaction.isWritable_toJson Transaction.ofJson?_toJson
        Transaction.withoutZeroSigns_withoutZeroSigns
  | hourBucket =>
      exact ⟨HourBucket.isWritable_toJson, fun _ => HourBucket.ofJson?_toJson,
        fun _ _ => HourBucket.isKeyed_of_ofJson?, fun _ => rfl⟩
  | volumeScope =>
      exact .of_forall VolumeScope.isWritable_toJson VolumeScope.ofJson?_toJson fun _ => rfl
  | hourlyVolume =>
      exact ⟨HourlyVolume.isWritable_toJson, fun _ => HourlyVolume.ofJson?_toJson,
        fun _ _ => HourlyVolume.isKeyed_of_ofJson?,
        HourlyVolume.withoutZeroSigns_withoutZeroSigns⟩
  | leaderboardDimension =>
      exact .of_forall LeaderboardDimension.isWritable_toJson LeaderboardDimension.ofJson?_toJson
        fun _ => rfl
  | leaderboardEntry =>
      exact .of_forall LeaderboardEntry.isWritable_toJson LeaderboardEntry.ofJson?_toJson
        LeaderboardEntry.withoutZeroSigns_withoutZeroSigns

/-- A written value is read back without the signs of zeros.  So is every
value that was read from any text, and writing and reading it again does not
change it any more. -/
theorem decode?_encode (type : ModelType) :
    (∀ value, type.IsKeyed value →
      type.decode? (type.encode value) = some (type.withoutZeroSigns value)) ∧
    ∀ text value, type.decode? text = some value →
      type.decode? (type.encode value) = some (type.withoutZeroSigns value) ∧
        type.decode? (type.encode (type.withoutZeroSigns value)) =
          some (type.withoutZeroSigns value) := by
  refine ⟨fun value keyed => type.readsBack.decode?_toText keyed, fun text value decoded => ?_⟩
  have keyed : type.IsKeyed value := type.readsBack.readable_of_decode? decoded
  exact ⟨type.readsBack.decode?_toText keyed, type.readsBack.decode?_toText_settled keyed⟩

/-- The hour from midnight on the first day of year zero. -/
def midnightOfYearZero : HourBucket :=
  { index := -17268672
    index_ge := by decide
    index_le := by decide }

/-- A listing at a leap second. -/
def leapSecondListing : Transaction :=
  { collectionId := 1
    kind := .list
    price := ⟨true, 25, 1, by decide, by decide⟩
    timestamp := ⟨1483228799, 1500000000, by decide, by decide, by decide, by decide⟩ }

/-- The listing as an array, with the price as a number and the clock of
another time zone. -/
def leapSecondText : Text.RawText :=
  Text.ofString "[1, \x7b\"list\": null\x7d, -2.50, \"+2016-12-31t22:59:60.5 -01:00\"]"

theorem decode?_encode_withLeapSecond :
    (midnightOfYearZero.IsKeyed ∧
      hourBucket.decode? (hourBucket.encode midnightOfYearZero) = some midnightOfYearZero) ∧
    transaction.decode? leapSecondText = some leapSecondListing ∧
      transaction.decode? (transaction.encode leapSecondListing) = some leapSecondListing := by
  have keyed : midnightOfYearZero.IsKeyed := by decide
  have read : Json.decode? Transaction.ofJson? leapSecondText = some leapSecondListing := by
    decide +kernel
  exact ⟨⟨keyed, (decode?_encode .hourBucket).1 midnightOfYearZero keyed⟩, read,
    ((decode?_encode .transaction).2 leapSecondText leapSecondListing read).1⟩

def negativeZeroText : Text.RawText :=
  Text.ofString "[1, \"buy\", \"-.1e-28\", \"2024-05-01T00:00:00Z\"]"

/-- A price that is rounded to zero when it is read keeps its sign, and loses
it when it is written and read again. -/
theorem decode?_encode_ne_withNegativeZero :
    transaction.decode? negativeZeroText = some .negativeZeroSale ∧
      transaction.decode? (transaction.encode .negativeZeroSale) ≠ some .negativeZeroSale := by
  have read : Json.decode? Transaction.ofJson? negativeZeroText = some .negativeZeroSale := by
    decide +kernel
  have readBack : transaction.decode? (transaction.encode .negativeZeroSale) =
      some Transaction.negativeZeroSale.withoutZeroSigns :=
    transaction.readsBack.decode?_toText trivial
  have changed : some Transaction.negativeZeroSale.withoutZeroSigns ≠
      some .negativeZeroSale := by
    decide
  exact ⟨read, fun same => changed (readBack.symm.trans same)⟩

end ModelType

end MarketStats
