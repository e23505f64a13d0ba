import MarketStats.Json.Decode

/-!
# Collections

A collection has an external token identifier, an internal number, and a name
for display.  Only the name may change after the first registration.
-/

namespace MarketStats

/-- The mapping from a token identifier to a collection and its name. -/
structure CollectionInfo where
  tokenId : String
  collectionId : Int64
  name : String
deriving DecidableEq, Repr

/-- A field of a collection mapping, in alphabetical order. -/
inductive CollectionField
  | collectionId
  | name
  | tokenId
deriving DecidableEq, Repr

/-- What is wrong with a field. -/
inductive FieldFault
  | length
  | range
deriving DecidableEq, Repr

/-- How faults spell a field. -/
def CollectionField.label : CollectionField → String
  | .collectionId => "collection_id"
  | .name => "name"
  | .tokenId => "token_id"

def FieldFault.code : FieldFault → String
  | .length => "length"
  | .range => "range"

namespace CollectionInfo

def maxTokenIdLength : Nat := 128

def maxNameLength : Nat := 256

def lengthWithin (most : Nat) (text : String) : Bool :=
  decide (1 ≤ text.length ∧ text.length ≤ most)

/-- The faults of a mapping, in alphabetical order of the fields. -/
def faults (info : CollectionInfo) : List (CollectionField × FieldFault) :=
  (if 0 ≤ info.collectionId then [] else [(.collectionId, .range)])
    ++ (if lengthWithin maxNameLength info.name then [] else [(.name, .length)])
    ++ (if lengthWithin maxTokenIdLength info.tokenId then [] else [(.tokenId, .length)])

def isValid (info : CollectionInfo) : Bool :=
  info.faults.isEmpty

/-- The faults of a mapping in words, a line for each field.  The limits and the
value that is outside them are left out; they come in no fixed order. -/
def faultText (info : CollectionInfo) : String :=
  "\n".intercalate (info.faults.map fun (field, fault) =>
    field.label ++ ": Validation error: " ++ fault.code)

def toJson (info : CollectionInfo) : Json :=
  .record
    [("tokenId", .text info.tokenId),
      ("collectionId", .int info.collectionId.toInt),
      ("name", .text info.name)]

def ofJson? (value : Json) : Option CollectionInfo := do
  match ← value.asRecord? ["tokenId", "collectionId", "name"] with
  | [tokenId, collectionId, name] =>
      some
        { tokenId := ← tokenId.asText?
          collectionId := ← collectionId.asInt64?
          name := ← name.asText? }
  | _ => none

theorem isValid_iff (info : CollectionInfo) :
    info.isValid = true ↔
      0 ≤ info.collectionId ∧ (1 ≤ info.name.length ∧ info.name.length ≤ maxNameLength) ∧
        (1 ≤ info.tokenId.length ∧ info.tokenId.length ≤ maxTokenIdLength) := by
  simp only [isValid, faults, lengthWithin, decide_eq_true_eq]
  split <;> split <;> split <;> simp_all

end CollectionInfo

end MarketStats
