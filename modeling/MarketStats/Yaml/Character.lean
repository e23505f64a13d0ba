/-!
# Characters of YAML texts

The classes of characters by which a YAML text is cut into tokens, and the
characters that escapes stand for.
-/

namespace MarketStats

namespace Yaml

def byteOrderMark : Char := '\ufeff'

def isBlank (character : Char) : Bool :=
  character == ' ' || character == '\t'

def isBreak (character : Char) : Bool :=
  character == '\n' || character == '\r' || character == '\u0085' || character == '\u2028'
    || character == '\u2029'

def isSpacing (character : Char) : Bool :=
  isBlank character || isBreak character

/-- The character that a line break leaves in a scalar.  Line and paragraph
separators stay; the other breaks are all alike. -/
def keptBreak (character : Char) : Char :=
  if character == '\u2028' || character == '\u2029' then character else '\n'

/-- A character of anchors, tag handles and directive names. -/
def isWordCharacter (character : Char) : Bool :=
  character.isAlphanum || character == '_' || character == '-'

/-- A character that starts or ends a flow collection, or separates its
items. -/
def isFlowIndicator (character : Char) : Bool :=
  character == ',' || character == '[' || character == ']' || character == '{'
    || character == '}'

def isIndicator (character : Char) : Bool :=
  isFlowIndicator character || character == '-' || character == '?' || character == ':'
    || character == '#' || character == '&' || character == '*' || character == '!'
    || character == '|' || character == '>' || character == '\'' || character == '"'
    || character == '%' || character == '@' || character == '\x60'

def isAdmitted (character : Char) : Bool :=
  let code := character.toNat
  code == 0x9 || code == 0xa || code == 0xd || (0x20 ≤ code && code ≤ 0x7e) || code == 0x85
    || (0xa0 ≤ code && code ≤ 0xfffd) || 0x10000 ≤ code

/-- Whether a text starts with a blank or a line break, or is empty. -/
def startsSpaced : List Char → Bool
  | [] => true
  | character :: _ => isSpacing character

def unescape? (character : Char) : Option Char :=
  match character with
  | '0' => some '\x00'
  | 'a' => some '\x07'
  | 'b' => some '\x08'
  | 't' => some '\t'
  | '\t' => some '\t'
  | 'n' => some '\n'
  | 'v' => some '\x0b'
  | 'f' => some '\x0c'
  | 'r' => some '\r'
  | 'e' => some '\x1b'
  | ' ' => some ' '
  | '"' => some '"'
  | '/' => some '/'
  | '\\' => some '\\'
  | 'N' => some '\u0085'
  | '_' => some '\u00a0'
  | 'L' => some '\u2028'
  | 'P' => some '\u2029'
  | _ => none

def escapeWidth? (character : Char) : Option Nat :=
  match character with
  | 'x' => some 2
  | 'u' => some 4
  | 'U' => some 8
  | _ => none

end Yaml

end MarketStats
