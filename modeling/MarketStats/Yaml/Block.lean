import MarketStats.Yaml.Cursor

/-!
# Block scalars

A block scalar holds the lines below its header that are indented more than
what they belong to.  It keeps its line breaks, or folds them between lines
that do not start with a blank.  The header may give the indentation, and says
what becomes of the line breaks at the end.
-/

namespace MarketStats

namespace Yaml

/-- What becomes of the line breaks at the end of a block scalar. -/
inductive Chomping
  | strip
  | clip
  | keep
deriving DecidableEq

/-- The header of a block scalar; without a number the indentation is that of
the first line. -/
structure BlockHeader where
  chomping : Chomping
  indentation : Option Nat

namespace BlockHeader

def chomping? (cursor : Cursor) : Option Chomping :=
  if cursor.sees (· == '+') then some .keep
  else if cursor.sees (· == '-') then some .strip
  else none

/-- Read an optional digit, which must not be zero. -/
def readDigit? (cursor : Cursor) : Option (Option Nat × Cursor) :=
  match cursor.rest.head? with
  | some digit =>
      if !digit.isDigit then some (none, cursor)
      else if digit = '0' then none
      else some (some (digit.toNat - '0'.toNat), cursor.skip 1)
  | none => some (none, cursor)

/-- Read a header behind its bar or angle, up to the next line. -/
def read? (cursor : Cursor) : Option (BlockHeader × Cursor) := do
  let (header, behind) ←
    match chomping? cursor with
    | some chomping =>
        (readDigit? (cursor.skip 1)).map fun (indentation, behind) =>
          (({ chomping, indentation } : BlockHeader), behind)
    | none =>
        (readDigit? cursor).map fun (indentation, behind) =>
          match indentation, chomping? behind with
          | some _, some chomping => ({ chomping, indentation }, behind.skip 1)
          | _, _ => ({ chomping := .clip, indentation }, behind)
  let behind := (behind.skipWhile isBlank).skipComment
  if behind.atLineEnd then some (header, behind.skipBreak) else none

end BlockHeader

/-- The empty lines in front of a line of a block scalar: their breaks, latest
first, and the deepest column that was reached. -/
structure EmptyLines where
  breaks : List Char
  deepest : Nat

namespace EmptyLines

/-- Read empty lines, and the spaces in front of the next line up to its
indentation, if that is known.  No tab may take the place of such a space.  The
number counts steps that are left. -/
def read? (indentation : Option Nat) :
    Nat → EmptyLines → Cursor → Option (EmptyLines × Cursor)
  | 0, lines, cursor => some (lines, cursor)
  | steps + 1, lines, cursor =>
      let spaces := (cursor.run (· == ' ')).length
      let behind :=
        match indentation with
        | some depth => cursor.skip (min spaces (depth - cursor.column))
        | none => cursor.skip spaces
      let lines := { lines with deepest := max lines.deepest behind.column }
      let isShort := indentation.all fun depth => decide (behind.column < depth)
      if isShort && behind.sees (· == '\t') then
        none
      else
        match behind.rest with
        | character :: _ =>
            if isBreak character then
              read? indentation steps
                { lines with breaks := keptBreak character :: lines.breaks } behind.skipBreak
            else
              some (lines, behind)
        | [] => some (lines, behind)

end EmptyLines

/-- The lines of a block scalar that have been read: their characters, latest
first, the break behind the latest line, the breaks of empty lines behind that,
and whether the latest line starts with a blank. -/
structure BlockLines where
  text : List Char
  lineBreak : List Char
  breaks : List Char
  startsBlank : Bool

namespace BlockLines

def joint (lines : BlockLines) (folded nextStartsBlank : Bool) : List Char :=
  if folded && lines.lineBreak == ['\n'] && !lines.startsBlank && !nextStartsBlank then
    if lines.breaks = [] then [' '] else lines.breaks.reverse
  else
    lines.lineBreak ++ lines.breaks.reverse

def finish (lines : BlockLines) (chomping : Chomping) : List Char :=
  match chomping with
  | .strip => lines.text.reverse
  | .clip => lines.text.reverse ++ lines.lineBreak
  | .keep => lines.text.reverse ++ lines.lineBreak ++ lines.breaks.reverse

/-- Read the lines of a block scalar.  The number counts steps that are
left. -/
def read? (folded : Bool) (indentation : Nat) :
    Nat → BlockLines → Cursor → Option (BlockLines × Cursor)
  | 0, lines, cursor => some (lines, cursor)
  | steps + 1, lines, cursor =>
      if cursor.column ≠ indentation ∨ cursor.atEnd then
        some (lines, cursor)
      else do
        let startsBlank := cursor.sees isBlank
        let line := cursor.run fun character => !isBreak character
        let behind := cursor.skip line.length
        let lineBreak := (behind.rest.head?.map keptBreak).toList
        let (empty, next) ←
          EmptyLines.read? (some indentation) cursor.rest.length ⟨[], 0⟩ behind.skipBreak
        let text := line.reverse ++ ((lines.joint folded startsBlank).reverse ++ lines.text)
        read? folded indentation steps
          { text, lineBreak, breaks := empty.breaks, startsBlank } next

end BlockLines

/-- Read a block scalar at its bar or angle.  Its lines reach the margin, or
are indented from there by the number in its header. -/
def readBlock? (folded : Bool) (margin : Nat) (cursor : Cursor) :
    Option (List Char × Cursor) := do
  let (header, behind) ← BlockHeader.read? (cursor.skip 1)
  let given := header.indentation.map fun depth => margin - 1 + depth
  let steps := behind.rest.length
  let (empty, behind) ← EmptyLines.read? given (steps + 1) ⟨[], 0⟩ behind
  let indentation := given.getD (max (max empty.deepest margin) 1)
  let (lines, behind) ←
    BlockLines.read? folded indentation (steps + 1) ⟨[], [], empty.breaks, false⟩ behind
  some (lines.finish header.chomping, behind)

end Yaml

end MarketStats
