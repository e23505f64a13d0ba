import MarketStats.Yaml.Token

/-!
# The layout of a YAML text

Block collections are given by indentation, and the key of a mapping is only
known to be one by the colon behind it.  A layout is what has to be remembered
for this while the tokens of a text are read: the columns of the open block
collections, and for each open flow collection, as for the block around them,
the token that may turn out to be a key.
-/

namespace MarketStats

namespace Yaml

/-- A place where a key may have started.  A key that starts at the column of
its mapping is required to be one. -/
structure PossibleKey where
  required : Bool
  position : Nat
  row : Nat
  column : Nat
  offset : Nat

/-- What is known about a text up to a place.  The columns, the keys and the
tokens are kept innermost or latest first. -/
structure Layout where
  cursor : Cursor
  columns : List Nat
  key : Option PossibleKey
  outerKeys : List (Option PossibleKey)
  keyAllowed : Bool
  tokens : List Token
  count : Nat

namespace Layout

def start (text : List Char) : Layout :=
  { cursor := Cursor.start text
    columns := []
    key := none
    outerKeys := []
    keyAllowed := true
    tokens := []
    count := 0 }

def inFlow (layout : Layout) : Bool :=
  !layout.outerKeys.isEmpty

def margin (layout : Layout) : Nat :=
  match layout.columns with
  | [] => 0
  | column :: _ => column + 1

def push (layout : Layout) (token : Token) : Layout :=
  { layout with tokens := token :: layout.tokens, count := layout.count + 1 }

def pushMark (layout : Layout) (token : Token) : Layout :=
  { layout.push token with cursor := layout.cursor.skip 1 }

def insert (layout : Layout) (position : Nat) (tokens : List Token) : Layout :=
  let later := layout.count - position
  { layout with
    tokens := layout.tokens.take later ++ tokens.reverse ++ layout.tokens.drop later
    count := layout.count + tokens.length }

def opensAt (layout : Layout) (column : Nat) : Bool :=
  !layout.inFlow && decide (layout.margin ≤ column)

def openBlock (layout : Layout) (token : Token) : Layout :=
  if layout.opensAt layout.cursor.column then
    { layout.push token with columns := layout.cursor.column :: layout.columns }
  else
    layout

/-- End the block collections that lie to the right of a column, or all of
them. -/
def closeBlocks (layout : Layout) (column : Option Nat) : Layout :=
  if layout.inFlow then
    layout
  else
    let closed := layout.columns.takeWhile fun start => column.all fun column => column < start
    { layout with
      columns := layout.columns.drop closed.length
      tokens := List.replicate closed.length .blockEnd ++ layout.tokens
      count := layout.count + closed.length }

/-- Give up the possible key, unless it is required to be one. -/
def releaseKey? (layout : Layout) : Option Layout :=
  if layout.key.any PossibleKey.required then none else some { layout with key := none }

/-- Give up the possible key and say whether the next token may start one. -/
def settle? (layout : Layout) (keyAllowed : Bool) : Option Layout :=
  layout.releaseKey?.map fun layout => { layout with keyAllowed }

def noteKey? (layout : Layout) : Option Layout :=
  if layout.keyAllowed then
    layout.releaseKey?.map fun released =>
      { released with
        key := some
          { required := !layout.inFlow && layout.columns.head? == some layout.cursor.column
            position := layout.count
            row := layout.cursor.row
            column := layout.cursor.column
            offset := layout.cursor.offset } }
  else
    some layout

/-- The possible key, if it is on the same line and not too long. -/
def freshKey? (layout : Layout) : Option PossibleKey :=
  layout.key.filter fun key =>
    key.row == layout.cursor.row && decide (layout.cursor.offset ≤ key.offset + 1024)

/-- The layout behind the spaces, comments and line breaks at a place.  A tab
counts as a space where no key may start.  The number counts steps that are
left. -/
def skipSpace : Nat → Layout → Layout
  | 0, layout => layout
  | steps + 1, layout =>
      let cursor := layout.cursor
      let cursor :=
        if cursor.column = 0 && cursor.sees (· == byteOrderMark) then cursor.skip 1 else cursor
      let tabAllowed := layout.inFlow || !layout.keyAllowed
      let cursor := cursor.skipWhile fun character =>
        character == ' ' || (tabAllowed && character == '\t')
      let cursor := cursor.skipComment
      if cursor.sees isBreak then
        skipSpace steps
          { layout with
            cursor := cursor.skipBreak
            keyAllowed := layout.keyAllowed || !layout.inFlow }
      else
        { layout with cursor }

def enterFlow? (layout : Layout) (token : Token) : Option Layout :=
  layout.noteKey?.map fun noted =>
    { noted.pushMark token with
      key := none, outerKeys := noted.key :: noted.outerKeys, keyAllowed := true }

def leaveFlow? (layout : Layout) (token : Token) : Option Layout :=
  (layout.settle? false).map fun settled =>
    match settled.outerKeys with
    | [] => settled.pushMark token
    | key :: outerKeys => { settled.pushMark token with key, outerKeys }

def blockEntry? (layout : Layout) : Option Layout :=
  if layout.inFlow || layout.keyAllowed then
    ((layout.openBlock .blockSequenceStart).settle? true).map (pushMark · .blockEntry)
  else
    none

def keyMark? (layout : Layout) : Option Layout :=
  if layout.inFlow || layout.keyAllowed then
    ((layout.openBlock .blockMappingStart).settle? !layout.inFlow).map (pushMark · .key)
  else
    none

def acceptKey (layout : Layout) (key : PossibleKey) : Layout :=
  if layout.opensAt key.column then
    { layout.insert key.position [.blockMappingStart, .key] with
      columns := key.column :: layout.columns }
  else
    layout.insert key.position [.key]

def valueMark? (layout : Layout) : Option Layout :=
  match layout.freshKey? with
  | some key =>
      some { (layout.acceptKey key).pushMark .value with key := none, keyAllowed := false }
  | none =>
      if layout.inFlow || layout.keyAllowed then
        ((layout.openBlock .blockMappingStart).settle? !layout.inFlow).map (pushMark · .value)
      else
        none

def pushTo (layout : Layout) (token : Token) (cursor : Cursor) : Layout :=
  { layout.push token with cursor }

def keyToken? (layout : Layout) (read : Cursor → Option (Token × Cursor)) : Option Layout := do
  let noted ← layout.noteKey?
  let (token, behind) ← read layout.cursor
  some { noted.pushTo token behind with keyAllowed := false }

def quoted? (layout : Layout) (double : Bool) : Option Layout :=
  layout.keyToken? fun cursor =>
    (ScalarStyle.readQuoted? double cursor).map fun (text, behind) =>
      (.scalar (if double then .doubleQuoted else .singleQuoted) (String.ofList text), behind)

def block? (layout : Layout) (folded : Bool) : Option Layout := do
  let settled ← layout.settle? true
  let (text, behind) ← readBlock? folded layout.margin layout.cursor
  some (settled.pushTo (.scalar (if folded then .folded else .literal) (String.ofList text)) behind)

/-- Read a plain scalar.  A key may start behind it if it ends behind a line
break. -/
def plain? (layout : Layout) : Option Layout := do
  let noted ← layout.noteKey?
  let (text, broken, behind) ← ScalarStyle.readPlain? layout.inFlow layout.margin layout.cursor
  some { noted.pushTo (.scalar .plain (String.ofList text)) behind with keyAllowed := broken }

def directive? (layout : Layout) : Option Layout := do
  let settled ← (layout.closeBlocks none).settle? false
  let (token, behind) ← Token.readDirective? layout.cursor
  some (settled.pushTo token behind)

def documentMarker? (layout : Layout) (token : Token) : Option Layout :=
  ((layout.closeBlocks none).settle? false).map fun settled =>
    settled.pushTo token (layout.cursor.skip 3)

/-- Whether a plain scalar may start with an indicator.  It may if the
indicator is followed by other characters. -/
def startsPlain (layout : Layout) (character : Char) : Bool :=
  let behind := layout.cursor.skip 1
  if character == '-' then !behind.sees isBlank
  else if character == '?' || character == ':' then !layout.inFlow && !behind.atSpacing
  else !isIndicator character && !isSpacing character

def token? (layout : Layout) (character : Char) : Option Layout :=
  let behind := layout.cursor.skip 1
  if layout.cursor.column = 0 ∧ character = '%' then layout.directive?
  else if layout.cursor.atMarker '-' then layout.documentMarker? .documentStart
  else if layout.cursor.atMarker '.' then layout.documentMarker? .documentEnd
  else if character = '[' then layout.enterFlow? .flowSequenceStart
  else if character = '{' then layout.enterFlow? .flowMappingStart
  else if character = ']' then layout.leaveFlow? .flowSequenceEnd
  else if character = '\x7d' then layout.leaveFlow? .flowMappingEnd
  else if character = ',' then (layout.settle? true).map (pushMark · .flowEntry)
  else if character = '-' ∧ behind.atSpacing then layout.blockEntry?
  else if character = '?' ∧ (layout.inFlow ∨ behind.atSpacing) then layout.keyMark?
  else if character = ':' ∧ (layout.inFlow ∨ behind.atSpacing) then layout.valueMark?
  else if character = '*' then
    layout.keyToken? fun cursor =>
      (Token.readAnchorName? (cursor.skip 1)).map fun (name, behind) => (.alias name, behind)
  else if character = '&' then
    layout.keyToken? fun cursor =>
      (Token.readAnchorName? (cursor.skip 1)).map fun (name, behind) => (.anchor name, behind)
  else if character = '!' then
    layout.keyToken? fun cursor =>
      (TagName.read? layout.inFlow cursor).map fun (name, behind) => (.tag name, behind)
  else if character = '|' ∧ !layout.inFlow then layout.block? false
  else if character = '>' ∧ !layout.inFlow then layout.block? true
  else if character = '\'' then layout.quoted? false
  else if character = '"' then layout.quoted? true
  else if layout.startsPlain character then layout.plain?
  else none

/-- Read the tokens up to the end of the text.  The number counts steps that
are left. -/
def finish? : Nat → Layout → Option (List Token)
  | 0, _ => none
  | steps + 1, layout =>
      let spaced := skipSpace (layout.cursor.rest.length + 1) layout
      let closed := spaced.closeBlocks (some spaced.cursor.column)
      match closed.cursor.rest with
      | [] => (closed.closeBlocks none).releaseKey?.map fun layout => layout.tokens.reverse
      | character :: _ => (closed.token? character).bind (finish? steps)

end Layout

def tokens? (text : List Char) : Option (List Token) :=
  if text.all isAdmitted then Layout.finish? (text.length + 1) (Layout.start text) else none

end Yaml

end MarketStats
