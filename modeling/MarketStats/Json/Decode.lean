import MarketStats.Calendar.Timestamp
import MarketStats.Decimal.Reader
import MarketStats.Json.Number
import MarketStats.Json.Reader

/-!
# Taking JSON values apart

A record is written as an object that has each of its fields once, beside any
others, or as an array of exactly its fields in order.  A choice without
contents is written as its name, or as an object with that name for its only
field and null for the value.
-/

namespace MarketStats

namespace Json

def asText? : Json → Option String
  | .string content => content
  | _ => none

def asBool? : Json → Option Bool
  | .bool value => some value
  | _ => none

/-- An integer of at most sixty-four bits, with or without a sign. -/
def asInt? : Json → Option Int
  | .number written => written.toInt?
  | _ => none

def asInt64? (value : Json) : Option Int64 :=
  value.asInt?.bind fun integer =>
    if -0x8000000000000000 ≤ integer ∧ integer < 0x8000000000000000 then
      some (Int64.ofInt integer)
    else
      none

def asNatBelow? (bound : Nat) (value : Json) : Option Nat :=
  value.asInt?.bind fun integer =>
    if 0 ≤ integer ∧ integer < bound then some integer.toNat else none

def asUInt64? (value : Json) : Option UInt64 :=
  (value.asNatBelow? UInt64.size).map UInt64.ofNat

/-- A decimal amount: a string in its written form, or a number.  A number
that is no integer is read from its shortest decimal digits. -/
def asAmount? : Json → Option Decimal
  | .string content => content.bind fun written => Decimal.read? written.toList
  | .number written =>
      match written.toInt? with
      | some integer => Decimal.ofInt? integer
      | none => written.toDouble?.bind fun value => Decimal.readPlain? value.toPositional
  | _ => none

def asInstant? (value : Json) : Option Calendar.Instant :=
  value.asText?.bind fun written => Calendar.Timestamp.read? written.toList

def asList? : Json → Option (List Json)
  | .array items => some items
  | _ => none

/-- The fields of an object, if all their names have content. -/
def asFields? : Json → Option (List (String × Json))
  | .object fields =>
      fields.mapM fun (name, value) => name.map fun name => (name, value)
  | _ => none

def uniqueField? (fields : List (String × Json)) (name : String) : Option Json :=
  match fields.filter fun field => field.1 == name with
  | [field] => some field.2
  | _ => none

/-- The values of a record with the given field names, in the order of the
names. -/
def asRecord? (names : List String) (value : Json) : Option (List Json) :=
  match value with
  | .array items => if items.length = names.length then some items else none
  | _ => value.asFields?.bind fun fields => names.mapM (uniqueField? fields)

def asChoice? : Json → Option String
  | .string content => content
  | .object [(name, .null)] => name
  | _ => none

def decode? {α : Type} (take : Json → Option α) (text : Text.RawText) : Option α :=
  (read? text).bind take

end Json

end MarketStats
