import MarketStats.Text.Symbol

/-!
# JSON values

A JSON text is kept as it is written: numbers as their digits, object fields
in order and with repetitions.  A string whose escapes or bytes do not make up
characters is still a string, but has no content; it may be skipped and cannot
be used.  This file also writes values without any blanks.
-/

namespace MarketStats

/-- A number as written: a sign, digits, the digits behind the point, and the
sign and digits of the exponent. -/
structure NumberText where
  negative : Bool
  whole : List Char
  fraction : List Char
  exponent : Option (Bool × List Char)
deriving DecidableEq, Repr

/-- A JSON value. -/
inductive Json
  | null
  | bool (value : Bool)
  | number (written : NumberText)
  | string (content : Option String)
  | array (items : List Json)
  | object (fields : List (Option String × Json))

namespace NumberText

def ofInt (value : Int) : NumberText :=
  { negative := decide (value < 0)
    whole := Nat.toDigits 10 value.natAbs
    fraction := []
    exponent := none }

def toChars (written : NumberText) : List Char :=
  (if written.negative then ['-'] else []) ++ written.whole
    ++ (if written.fraction = [] then [] else '.' :: written.fraction)
    ++ (match written.exponent with
        | none => []
        | some (negative, digits) => 'e' :: (if negative then '-' :: digits else digits))

end NumberText

namespace Json

def text (content : String) : Json :=
  .string (some content)

def int (value : Int) : Json :=
  .number (NumberText.ofInt value)

def nat (value : Nat) : Json :=
  .int value

def record (fields : List (String × Json)) : Json :=
  .object (fields.map fun (name, value) => (some name, value))

/-- The written form of a character inside a string.  Only the quote, the
backslash and control characters are escaped. -/
def escapeChar (character : Char) : List Char :=
  if character = '"' then ['\\', '"']
  else if character = '\\' then ['\\', '\\']
  else if character = '\x08' then ['\\', 'b']
  else if character = '\x0c' then ['\\', 'f']
  else if character = '\n' then ['\\', 'n']
  else if character = '\r' then ['\\', 'r']
  else if character = '\t' then ['\\', 't']
  else if character.toNat < 0x20 then
    ['\\', 'u', '0', '0', Text.hexDigit (character.toNat / 16),
      Text.hexDigit (character.toNat % 16)]
  else [character]

def quote (content : List Char) : List Char :=
  '"' :: (content.flatMap escapeChar ++ ['"'])

def separate : List (List Char) → List Char
  | [] => []
  | [item] => item
  | item :: items => item ++ ',' :: separate items

mutual

/-- The written form of a value.  A string without content is written as the
empty string. -/
def toChars : Json → List Char
  | .null => ['n', 'u', 'l', 'l']
  | .bool true => ['t', 'r', 'u', 'e']
  | .bool false => ['f', 'a', 'l', 's', 'e']
  | .number written => written.toChars
  | .string content => quote (content.getD "").toList
  | .array items => '[' :: (separate (itemsToChars items) ++ [']'])
  | .object fields => '{' :: (separate (fieldsToChars fields) ++ ['}'])

def itemsToChars : List Json → List (List Char)
  | [] => []
  | item :: items => toChars item :: itemsToChars items

def fieldsToChars : List (Option String × Json) → List (List Char)
  | [] => []
  | (name, value) :: fields =>
      (quote (name.getD "").toList ++ ':' :: toChars value) :: fieldsToChars fields

end

def toText (value : Json) : String :=
  String.ofList value.toChars

end Json

end MarketStats
