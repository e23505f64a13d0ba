/-!
# Bytes read as text

A byte string need not be UTF-8.  It is read as a list of symbols: the
characters that its well-formed parts stand for, and each byte that belongs to
no character by itself.
-/

namespace MarketStats

namespace Text

/-- A character, or a byte that belongs to no character. -/
inductive Symbol
  | char (character : Char)
  | stray (byte : UInt8)
deriving DecidableEq, Repr

/-- A byte string read as text. -/
abbrev RawText := List Symbol

def ofChars (text : List Char) : RawText :=
  text.map Symbol.char

def ofString (text : String) : RawText :=
  ofChars text.toList

def continuation? (byte : UInt8) : Option Nat :=
  if 0x80 ≤ byte ∧ byte < 0xc0 then some (byte.toNat - 0x80) else none

/-- The character with a code point, if the code point is that of a character
and no smaller than `least`. -/
def charFrom? (least code : Nat) : Option Char :=
  if valid : code.isValidChar ∧ least ≤ code then
    some (Char.ofNatAux code valid.1)
  else
    none

def decodeChar? (lead : UInt8) (following : List UInt8) : Option Char :=
  following.mapM continuation? |>.bind fun payloads =>
    match payloads with
    | [] => if lead < 0x80 then charFrom? 0 lead.toNat else none
    | [second] =>
        if 0xc0 ≤ lead ∧ lead < 0xe0 then
          charFrom? 0x80 ((lead.toNat - 0xc0) * 64 + second)
        else
          none
    | [second, third] =>
        if 0xe0 ≤ lead ∧ lead < 0xf0 then
          charFrom? 0x800 (((lead.toNat - 0xe0) * 64 + second) * 64 + third)
        else
          none
    | [second, third, fourth] =>
        if 0xf0 ≤ lead ∧ lead < 0xf8 then
          charFrom? 0x10000 ((((lead.toNat - 0xf0) * 64 + second) * 64 + third) * 64 + fourth)
        else
          none
    | _ => none

def continuationCount (lead : UInt8) : Nat :=
  if lead < 0xc0 then 0
  else if lead < 0xe0 then 1
  else if lead < 0xf0 then 2
  else 3

/-- Read a byte string as text.  A byte that starts no character stands alone,
and reading goes on with the byte behind it. -/
def ofBytes : List UInt8 → RawText
  | [] => []
  | lead :: rest =>
      let count := continuationCount lead
      let following := rest.take count
      match (if following.length = count then decodeChar? lead following else none) with
      | some character => .char character :: ofBytes (rest.drop count)
      | none => .stray lead :: ofBytes rest
termination_by bytes => bytes.length
decreasing_by
  all_goals simp only [List.length_cons, List.length_drop]
  all_goals omega

def Symbol.toBytes : Symbol → List UInt8
  | .char character => (String.singleton character).toUTF8.toList
  | .stray byte => [byte]

def toBytes (text : RawText) : List UInt8 :=
  text.flatMap Symbol.toBytes

def hexDigit (value : Nat) : Char :=
  Nat.digitChar value

def hexValue? (character : Char) : Option Nat :=
  if character.isDigit then some (character.toNat - '0'.toNat)
  else if 'a' ≤ character ∧ character ≤ 'f' then some (character.toNat - 'a'.toNat + 10)
  else if 'A' ≤ character ∧ character ≤ 'F' then some (character.toNat - 'A'.toNat + 10)
  else none

def toHex (bytes : List UInt8) : String :=
  String.ofList (bytes.flatMap fun byte => [hexDigit (byte.toNat / 16), hexDigit (byte.toNat % 16)])

def ofHex? : List Char → Option (List UInt8)
  | [] => some []
  | high :: low :: rest => do
      let highValue ← hexValue? high
      let lowValue ← hexValue? low
      let bytes ← ofHex? rest
      some (UInt8.ofNat (highValue * 16 + lowValue) :: bytes)
  | [_] => none

end Text

end MarketStats
