import MarketStats.Text.Symbol
import MarketStats.Yaml.Cursor
import MarketStats.Yaml.Number

/-!
# Scalars on lines

Plain and quoted scalars may run over several lines.  Where they do, the line
breaks and the blanks around them are folded: one line break becomes a space,
and of several the first one is left out.
-/

namespace MarketStats

namespace Yaml

/-- How a scalar is written. -/
inductive ScalarStyle
  | plain
  | singleQuoted
  | doubleQuoted
  | literal
  | folded
deriving DecidableEq, Repr

/-- Blanks and line breaks inside a scalar.  The blanks are those of a gap on
one line; all parts are kept latest first. -/
structure Gap where
  blanks : List Char
  broken : Bool
  firstBreak : List Char
  breaks : List Char

namespace Gap

def none : Gap :=
  { blanks := [], broken := false, firstBreak := [], breaks := [] }

def joined : Gap :=
  { none with broken := true }

def addBreak (gap : Gap) (character : Char) : Gap :=
  if gap.broken then
    { gap with breaks := keptBreak character :: gap.breaks }
  else
    { blanks := [], broken := true, firstBreak := [keptBreak character], breaks := [] }

def text (gap : Gap) : List Char :=
  if !gap.broken then gap.blanks.reverse
  else if gap.firstBreak ≠ ['\n'] then gap.firstBreak ++ gap.breaks.reverse
  else if gap.breaks = [] then [' ']
  else gap.breaks.reverse

/-- Read on in a gap.  On its later lines no tab may stand in front of the
margin.  The number counts steps that are left. -/
def read? (margin : Nat) : Nat → Gap → Cursor → Option (Gap × Cursor)
  | 0, gap, cursor => some (gap, cursor)
  | steps + 1, gap, cursor =>
      match cursor.rest with
      | [] => some (gap, cursor)
      | character :: _ =>
          if isBreak character then
            read? margin steps (gap.addBreak character) cursor.skipBreak
          else if !isBlank character then
            some (gap, cursor)
          else if !gap.broken then
            read? margin steps { gap with blanks := character :: gap.blanks } (cursor.skip 1)
          else if character = '\t' ∧ cursor.column < margin then
            Option.none
          else
            read? margin steps gap (cursor.skip 1)

end Gap

namespace Cursor

def gap? (cursor : Cursor) (margin : Nat) (start : Gap) : Option (Gap × Cursor) :=
  Gap.read? margin cursor.rest.length start cursor

end Cursor

namespace ScalarStyle

def escapedChar? (digits : List Char) : Option Char :=
  (numberIn? 16 digits).bind fun code => Text.charFrom? 0 code

/-- A piece of a quoted scalar: some characters, or a line break that counts
for nothing. -/
inductive Piece
  | text (character : Char)
  | joint

/-- Read a piece of a single-quoted scalar; there is none at the closing
quote, at a gap, or at the end of the text. -/
def singlePiece? (cursor : Cursor) : Option (Piece × Cursor) :=
  match cursor.rest with
  | '\'' :: '\'' :: _ => some (.text '\'', cursor.skip 2)
  | character :: _ =>
      if isSpacing character || character == '\'' then none
      else some (.text character, cursor.skip 1)
  | [] => none

def isEscape (cursor : Cursor) : Bool :=
  cursor.sees (· == '\\')

def escape? (cursor : Cursor) : Option (Piece × Cursor) :=
  match cursor.rest.drop 1 with
  | [] => none
  | mark :: rest =>
      if isBreak mark then
        some (.joint, (cursor.skip 1).skipBreak)
      else
        match escapeWidth? mark with
        | some width =>
            if width ≤ rest.length then
              (escapedChar? (rest.take width)).map fun character =>
                (.text character, cursor.skip (2 + width))
            else
              none
        | none => (unescape? mark).map fun character => (.text character, cursor.skip 2)

/-- Read a character of a double-quoted scalar other than an escape; there is
none at the closing quote, at a gap, or at the end of the text. -/
def doublePiece? (cursor : Cursor) : Option (Piece × Cursor) :=
  match cursor.rest with
  | character :: _ =>
      if isSpacing character || character == '"' then none
      else some (.text character, cursor.skip 1)
  | [] => none

/-- Read a word of a quoted scalar: its characters, latest first, and the gap
with which it ends if it ends at an escaped line break.  The number counts
steps that are left. -/
def readWord? (double : Bool) : Nat → List Char → Cursor → Option (List Char × Gap × Cursor)
  | 0, text, cursor => some (text, .none, cursor)
  | steps + 1, text, cursor =>
      if double && isEscape cursor then
        match escape? cursor with
        | none => none
        | some (.joint, behind) => some (text, .joined, behind)
        | some (.text character, behind) => readWord? double steps (character :: text) behind
      else
        match if double then doublePiece? cursor else singlePiece? cursor with
        | some (.text character, behind) => readWord? double steps (character :: text) behind
        | _ => some (text, .none, cursor)

/-- Read the words of a quoted scalar up to its closing quote.  The number
counts steps that are left. -/
def readWords? (double : Bool) : Nat → List Char → Cursor → Option (List Char × Cursor)
  | 0, _, _ => none
  | steps + 1, text, cursor =>
      if cursor.atEnd || cursor.atDocumentMarker then
        none
      else do
        let (text, gap, behind) ← readWord? double cursor.rest.length text cursor
        if behind.sees (· == if double then '"' else '\'') then
          some (text.reverse, behind.skip 1)
        else
          let (gap, behind) ← behind.gap? 0 gap
          readWords? double steps (gap.text.reverse ++ text) behind

def readQuoted? (double : Bool) (cursor : Cursor) : Option (List Char × Cursor) :=
  readWords? double (cursor.rest.length + 1) [] (cursor.skip 1)

/-- The characters of a plain scalar up to a gap, the end of the text, or
a character that ends the scalar.  Inside a flow collection a colon must not
stand in front of an indicator. -/
def plainWord? (inFlow : Bool) : List Char → Option (List Char)
  | [] => some []
  | character :: rest =>
      if isSpacing character then
        some []
      else if character = ':' ∧ inFlow
          ∧ rest.head?.any (fun next => next == '?' || isFlowIndicator next) then
        none
      else if character = ':' ∧ startsSpaced rest then
        some []
      else if inFlow && isFlowIndicator character then
        some []
      else
        (plainWord? inFlow rest).map (character :: ·)

/-- A plain scalar that has been read so far: its characters, latest first, and
the gap behind them. -/
structure PlainText where
  text : List Char
  gap : Gap

/-- Read on in a plain scalar.  Outside of flow collections it ends at a line
that does not reach the margin.  The flag of the result says whether it ends
behind a line break.  The number counts steps that are left. -/
def readPlainWords? (inFlow : Bool) (margin : Nat) :
    Nat → PlainText → Cursor → Option (List Char × Bool × Cursor)
  | 0, read, cursor => some (read.text.reverse, read.gap.broken, cursor)
  | steps + 1, read, cursor =>
      if cursor.atDocumentMarker || cursor.sees (· == '#') then
        some (read.text.reverse, read.gap.broken, cursor)
      else do
        let word ← plainWord? inFlow cursor.rest
        if word = [] then
          some (read.text.reverse, read.gap.broken, cursor)
        else
          let behind := cursor.skip word.length
          let text := word.reverse ++ (read.gap.text.reverse ++ read.text)
          let (gap, behind) ← behind.gap? margin .none
          if !inFlow && gap.broken && behind.column < margin then
            some (text.reverse, true, behind)
          else
            readPlainWords? inFlow margin steps { text, gap } behind

def readPlain? (inFlow : Bool) (margin : Nat) (cursor : Cursor) :
    Option (List Char × Bool × Cursor) :=
  readPlainWords? inFlow margin (cursor.rest.length + 1) { text := [], gap := .none } cursor

end ScalarStyle

end Yaml

end MarketStats
