import MarketStats.Yaml.Block
import MarketStats.Yaml.Scalar
import MarketStats.Yaml.Tag

/-!
# Tokens

The words of a YAML text: scalars, the indicators of collections, and the
properties and directives that are written with a mark in front.
-/

namespace MarketStats

namespace Yaml

/-- A word of a YAML text.  The start and the end of a block collection follow
from the indentation. -/
inductive Token
  | version (major minor : Nat)
  | tagHandle (handle : TagHandle)
  | documentStart
  | documentEnd
  | blockSequenceStart
  | blockMappingStart
  | blockEnd
  | flowSequenceStart
  | flowSequenceEnd
  | flowMappingStart
  | flowMappingEnd
  | blockEntry
  | flowEntry
  | key
  | value
  | alias (anchor : String)
  | anchor (name : String)
  | tag (name : TagName)
  | scalar (style : ScalarStyle) (text : String)

namespace Token

def endsAnchor (cursor : Cursor) : Bool :=
  cursor.atSpacing || cursor.sees fun character => "?:,]\x7d%@\x60".toList.contains character

def readAnchorName? (cursor : Cursor) : Option (String × Cursor) :=
  let name := cursor.run isWordCharacter
  let behind := cursor.skip name.length
  if name ≠ [] ∧ endsAnchor behind then some (String.ofList name, behind) else none

def readVersionPart? (cursor : Cursor) : Option (Nat × Cursor) :=
  let digits := cursor.run Char.isDigit
  if digits ≠ [] ∧ digits.length ≤ 9 then
    some (Nat.ofDigitChars 10 digits 0, cursor.skip digits.length)
  else
    none

def readVersion? (cursor : Cursor) : Option (Token × Cursor) := do
  let (major, behind) ← readVersionPart? (cursor.skipWhile isBlank)
  if behind.sees (· == '.') then
    let (minor, behind) ← readVersionPart? (behind.skip 1)
    some (.version major minor, behind)
  else
    none

def readTagHandle? (cursor : Cursor) : Option (Token × Cursor) := do
  let cursor := cursor.skipWhile isBlank
  let (handle, behind) := TagName.readHandle cursor
  let isHandle := cursor.sees (· == '!') && (handle.length == 1 || TagName.isClosedHandle handle)
  if isHandle && behind.sees isBlank then
    let (meaning, behind) ← TagName.readNonempty? true (behind.skipWhile isBlank)
    if behind.atSpacing then some (.tagHandle ⟨handle, meaning⟩, behind) else none
  else
    none

/-- Read a directive at its percent sign, up to the next line. -/
def readDirective? (cursor : Cursor) : Option (Token × Cursor) := do
  let name := (cursor.skip 1).run isWordCharacter
  let behind := cursor.skip (1 + name.length)
  let (token, behind) ←
    if !behind.atSpacing then none
    else if name = "YAML".toList then readVersion? behind
    else if name = "TAG".toList then readTagHandle? behind
    else none
  let behind := (behind.skipWhile isBlank).skipComment
  if behind.atLineEnd then some (token, behind.skipBreak) else none

end Token

end Yaml

end MarketStats
