import MarketStats.Text.Symbol
import MarketStats.Yaml.Cursor

/-!
# Tags

A tag is a byte string.  In a document it is written in full, or as a handle
and a suffix, where the handle stands for a leading part that a directive has
declared.  Percent signs with two hexadecimal digits stand for bytes.
-/

namespace MarketStats

namespace Yaml

/-- A tag with its handle replaced by what it stands for. -/
abbrev Tag := List UInt8

/-- A tag as it is written; one written in full has no handle. -/
structure TagName where
  handle : List Char
  suffix : Tag

/-- What a handle stands for. -/
structure TagHandle where
  handle : List Char
  meaning : Tag

namespace Tag

def common (name : String) : Tag :=
  ("tag:yaml.org,2002:" ++ name).toUTF8.toList

def unspecific : Tag := "!".toUTF8.toList

def localName? : Tag → Option (List Char)
  | 33 :: name =>
      (Text.ofBytes name).mapM fun symbol =>
        match symbol with
        | .char character => some character
        | .stray _ => none
  | _ => none

end Tag

namespace TagHandle

/-- The handles that every document knows, unless it gives them another
meaning. -/
def known : List TagHandle :=
  [⟨['!'], "!".toUTF8.toList⟩, ⟨['!', '!'], "tag:yaml.org,2002:".toUTF8.toList⟩]

end TagHandle

namespace TagName

def resolve? (name : TagName) (handles : List TagHandle) : Option Tag :=
  if name.handle = [] then
    some name.suffix
  else
    (handles.find? fun entry => entry.handle == name.handle).map fun entry =>
      entry.meaning ++ name.suffix

/-- A character of a tag.  Separators of flow collections may stand in tags
that are written in full. -/
def isTagCharacter (full : Bool) (character : Char) : Bool :=
  isWordCharacter character || ";/?:@&=+$.!~*'()%".toList.contains character
    || (full && (character == ',' || character == '[' || character == ']'))

def escapedByte? : List Char → Option (UInt8 × List Char)
  | '%' :: high :: low :: rest => do
      let highValue ← Text.hexValue? high
      let lowValue ← Text.hexValue? low
      some (UInt8.ofNat (highValue * 16 + lowValue), rest)
  | _ => none

def characterLength? (first : UInt8) : Option Nat :=
  if first < 0x80 then some 1
  else if 0xc0 ≤ first ∧ first < 0xe0 then some 2
  else if 0xe0 ≤ first ∧ first < 0xf0 then some 3
  else if 0xf0 ≤ first ∧ first < 0xf8 then some 4
  else none

def continuation? : Nat → List Char → Option (List UInt8 × List Char)
  | 0, text => some ([], text)
  | count + 1, text => do
      let (byte, rest) ← escapedByte? text
      if 0x80 ≤ byte ∧ byte < 0xc0 then
        let (bytes, rest) ← continuation? count rest
        some (byte :: bytes, rest)
      else
        none

/-- Read the characters of a tag.  The number counts steps that are left. -/
def readBytes? (full : Bool) : Nat → List Char → Option (Tag × List Char)
  | 0, text => some ([], text)
  | steps + 1, text =>
      match text with
      | [] => some ([], [])
      | character :: rest =>
          if character = '%' then do
            let (first, rest) ← escapedByte? (character :: rest)
            let (others, rest) ← continuation? ((← characterLength? first) - 1) rest
            let (bytes, rest) ← readBytes? full steps rest
            some (first :: others ++ bytes, rest)
          else if isTagCharacter full character then do
            let (bytes, rest) ← readBytes? full steps rest
            some (UInt8.ofNat character.toNat :: bytes, rest)
          else
            some ([], character :: rest)

/-- Read the characters of a tag behind a part that has been read.  A zero byte
ends the tag. -/
def readSuffix? (full : Bool) (front : List Char) (cursor : Cursor) : Option (Tag × Cursor) := do
  let (bytes, rest) ← readBytes? full cursor.rest.length cursor.rest
  let read := front.map (fun character => UInt8.ofNat character.toNat) ++ bytes
  some (read.takeWhile (· != 0), cursor.skip (cursor.rest.length - rest.length))

def readNonempty? (full : Bool) (cursor : Cursor) : Option (Tag × Cursor) :=
  if cursor.sees (isTagCharacter full) then readSuffix? full [] cursor else none

/-- Read a handle: an exclamation mark, and, if another one stands behind
a word, that word and the mark. -/
def readHandle (cursor : Cursor) : List Char × Cursor :=
  let behind := cursor.skip 1
  let word := behind.run isWordCharacter
  let behind := behind.skip word.length
  if behind.sees (· == '!') then ('!' :: word ++ ['!'], behind.skip 1) else ('!' :: word, behind)

def isClosedHandle (text : List Char) : Bool :=
  2 ≤ text.length && text.getLast? == some '!'

def read? (inFlow : Bool) (cursor : Cursor) : Option (TagName × Cursor) := do
  let (name, behind) ←
    if (cursor.skip 1).sees (· == '<') then do
      let (suffix, behind) ← readNonempty? true (cursor.skip 2)
      if behind.sees (· == '>') then some (⟨[], suffix⟩, behind.skip 1) else none
    else
      let (handle, behind) := readHandle cursor
      if isClosedHandle handle then
        (readNonempty? false behind).map fun (suffix, behind) => (⟨handle, suffix⟩, behind)
      else
        (readSuffix? false (handle.drop 1) behind).map fun (suffix, behind) =>
          (if suffix = [] then ⟨[], Tag.unspecific⟩ else ⟨['!'], suffix⟩, behind)
  if behind.atSpacing || (inFlow && behind.sees (· == ',')) then some (name, behind) else none

end TagName

end Yaml

end MarketStats
