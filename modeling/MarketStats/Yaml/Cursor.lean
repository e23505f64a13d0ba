import MarketStats.Yaml.Character

/-!
# Places in a YAML text

A cursor is a place in a text: the text behind it, and how far the place is
from the start of the text and of its line.
-/

namespace MarketStats

namespace Yaml

/-- A place in a text. -/
structure Cursor where
  rest : List Char
  row : Nat
  column : Nat
  offset : Nat

namespace Cursor

def start (text : List Char) : Cursor :=
  { rest := text, row := 0, column := 0, offset := 0 }

def sees (cursor : Cursor) (expected : Char → Bool) : Bool :=
  cursor.rest.head?.any expected

def atEnd (cursor : Cursor) : Bool :=
  cursor.rest.isEmpty

/-- Whether a blank, a line break or the end of the text follows. -/
def atSpacing (cursor : Cursor) : Bool :=
  startsSpaced cursor.rest

def atLineEnd (cursor : Cursor) : Bool :=
  cursor.atEnd || cursor.sees isBreak

/-- The place some characters further on, none of which ends a line. -/
def skip (cursor : Cursor) (count : Nat) : Cursor :=
  let skipped := (cursor.rest.take count).length
  { cursor with
    rest := cursor.rest.drop count
    column := cursor.column + skipped
    offset := cursor.offset + skipped }

def run (cursor : Cursor) (wanted : Char → Bool) : List Char :=
  cursor.rest.takeWhile wanted

/-- The place behind the characters with a property, none of which ends a
line. -/
def skipWhile (cursor : Cursor) (wanted : Char → Bool) : Cursor :=
  cursor.skip (cursor.run wanted).length

/-- The place behind a line break.  Carriage return and line feed together are
one break. -/
def skipBreak (cursor : Cursor) : Cursor :=
  match cursor.rest with
  | '\r' :: '\n' :: rest =>
      { rest, row := cursor.row + 1, column := 0, offset := cursor.offset + 2 }
  | character :: rest =>
      if isBreak character then
        { rest, row := cursor.row + 1, column := 0, offset := cursor.offset + 1 }
      else
        cursor
  | [] => cursor

/-- The place behind a comment, if one starts here. -/
def skipComment (cursor : Cursor) : Cursor :=
  if cursor.sees (· == '#') then cursor.skipWhile fun character => !isBreak character else cursor

/-- Whether a marker of three equal characters stands alone at the start of a
line. -/
def atMarker (cursor : Cursor) (mark : Char) : Bool :=
  match cursor.rest with
  | first :: second :: third :: rest =>
      cursor.column == 0 && first == mark && second == mark && third == mark && startsSpaced rest
  | _ => false

def atDocumentMarker (cursor : Cursor) : Bool :=
  cursor.atMarker '-' || cursor.atMarker '.'

end Cursor

end Yaml

end MarketStats
