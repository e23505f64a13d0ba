import MarketStats.Json.Basic

/-!
# Reading JSON

A text is cut into tokens, and a machine with a stack of unfinished containers
reads the tokens from left to right.  Both stages accept exactly the JSON
grammar; blanks are spaces, tabs, line feeds and carriage returns.
-/

namespace MarketStats

namespace Json

open Text (Symbol RawText)

/-- The parts that a JSON text is cut into. -/
inductive Token
  | openArray
  | closeArray
  | openObject
  | closeObject
  | comma
  | colon
  | scalar (value : Json)
  | string (content : Option String)

/-- A part of a string: a character, a sixteen-bit unit given by an escape, or
a byte that belongs to no character. -/
inductive Piece
  | char (character : Char)
  | codeUnit (value : Nat)
  | malformed
deriving DecidableEq, Repr

def unescape? (character : Char) : Option Char :=
  match character with
  | '"' => some '"'
  | '\\' => some '\\'
  | '/' => some '/'
  | 'b' => some '\x08'
  | 'f' => some '\x0c'
  | 'n' => some '\n'
  | 'r' => some '\r'
  | 't' => some '\t'
  | _ => none

def hexUnit? (first second third fourth : Char) : Option Nat := do
  let a ← Text.hexValue? first
  let b ← Text.hexValue? second
  let c ← Text.hexValue? third
  let d ← Text.hexValue? fourth
  some (((a * 16 + b) * 16 + c) * 16 + d)

def readPieces : RawText → Option (List Piece × RawText)
  | [] => none
  | .stray _ :: rest =>
      (readPieces rest).map fun (pieces, behind) => (.malformed :: pieces, behind)
  | .char '"' :: rest => some ([], rest)
  | .char '\\' :: .char 'u' :: .char a :: .char b :: .char c :: .char d :: rest =>
      (hexUnit? a b c d).bind fun value =>
        (readPieces rest).map fun (pieces, behind) => (.codeUnit value :: pieces, behind)
  | .char '\\' :: .char escape :: rest =>
      (unescape? escape).bind fun character =>
        (readPieces rest).map fun (pieces, behind) => (.char character :: pieces, behind)
  | .char '\\' :: _ => none
  | .char character :: rest =>
      if character.toNat < 0x20 then
        none
      else
        (readPieces rest).map fun (pieces, behind) => (.char character :: pieces, behind)

def surrogatePair (high low : Nat) : Char :=
  Char.ofNat (0x10000 + (high - 0xd800) * 0x400 + (low - 0xdc00))

/-- The characters of a string, if its pieces make up characters.  A unit that
is half of a pair must stand in front of its other half. -/
def assemble? : List Piece → Option (List Char)
  | [] => some []
  | .char character :: pieces => (assemble? pieces).map (character :: ·)
  | .malformed :: _ => none
  | .codeUnit high :: .codeUnit low :: pieces =>
      if 0xd800 ≤ high ∧ high < 0xdc00 then
        if 0xdc00 ≤ low ∧ low < 0xe000 then
          (assemble? pieces).map (surrogatePair high low :: ·)
        else
          none
      else if 0xdc00 ≤ high ∧ high < 0xe000 then
        none
      else
        (assemble? (.codeUnit low :: pieces)).map (Char.ofNat high :: ·)
  | .codeUnit value :: pieces =>
      if 0xd800 ≤ value ∧ value < 0xe000 then
        none
      else
        (assemble? pieces).map (Char.ofNat value :: ·)

def splitDigits : RawText → List Char × RawText
  | .char character :: rest =>
      if character.isDigit then
        let (digits, behind) := splitDigits rest
        (character :: digits, behind)
      else
        ([], .char character :: rest)
  | text => ([], text)

/-- Read the digits in front of the point; only zero itself starts with a
zero. -/
def readWhole? (text : RawText) : Option (List Char × RawText) :=
  match text with
  | .char '0' :: rest => some (['0'], rest)
  | _ =>
      match splitDigits text with
      | ([], _) => none
      | split => some split

/-- Read the digits behind the point, if there is a point. -/
def readFraction? : RawText → Option (List Char × RawText)
  | .char '.' :: rest =>
      match splitDigits rest with
      | ([], _) => none
      | split => some split
  | text => some ([], text)

def readExponentDigits? (negative : Bool) (text : RawText) :
    Option (Option (Bool × List Char) × RawText) :=
  match splitDigits text with
  | ([], _) => none
  | (digits, behind) => some (some (negative, digits), behind)

def readExponent? : RawText → Option (Option (Bool × List Char) × RawText)
  | .char '+' :: rest => readExponentDigits? false rest
  | .char '-' :: rest => readExponentDigits? true rest
  | text => readExponentDigits? false text

/-- Read the exponent, if there is an exponent mark. -/
def readOptionalExponent? : RawText → Option (Option (Bool × List Char) × RawText)
  | .char 'e' :: rest => readExponent? rest
  | .char 'E' :: rest => readExponent? rest
  | text => some (none, text)

def readUnsigned? (negative : Bool) (text : RawText) : Option (NumberText × RawText) := do
  let (whole, text) ← readWhole? text
  let (fraction, text) ← readFraction? text
  let (exponent, text) ← readOptionalExponent? text
  some ({ negative, whole, fraction, exponent }, text)

def readNumber? : RawText → Option (NumberText × RawText)
  | .char '-' :: rest => readUnsigned? true rest
  | text => readUnsigned? false text

def isGap (symbol : Symbol) : Bool :=
  symbol == .char ' ' || symbol == .char '\t' || symbol == .char '\n' || symbol == .char '\r'

def readToken? : RawText → Option (Token × RawText)
  | .char '[' :: rest => some (.openArray, rest)
  | .char ']' :: rest => some (.closeArray, rest)
  | .char '{' :: rest => some (.openObject, rest)
  | .char '}' :: rest => some (.closeObject, rest)
  | .char ',' :: rest => some (.comma, rest)
  | .char ':' :: rest => some (.colon, rest)
  | .char 'n' :: .char 'u' :: .char 'l' :: .char 'l' :: rest => some (.scalar .null, rest)
  | .char 't' :: .char 'r' :: .char 'u' :: .char 'e' :: rest => some (.scalar (.bool true), rest)
  | .char 'f' :: .char 'a' :: .char 'l' :: .char 's' :: .char 'e' :: rest =>
      some (.scalar (.bool false), rest)
  | .char '"' :: rest =>
      (readPieces rest).map fun (pieces, behind) =>
        (.string ((assemble? pieces).map String.ofList), behind)
  | text => (readNumber? text).map fun (written, behind) => (.scalar (.number written), behind)

theorem readPieces_shorter {text behind : RawText} {pieces : List Piece}
    (read : readPieces text = some (pieces, behind)) : behind.length < text.length := by
  fun_induction readPieces text generalizing pieces behind with
  | case1 => simp at read
  | case2 _ rest ih =>
      simp only [Option.map_eq_some_iff, Prod.mk.injEq] at read
      obtain ⟨⟨inner, innerBehind⟩, found, -, rfl⟩ := read
      have := ih found
      simp only [List.length_cons]
      omega
  | case3 rest =>
      simp only [Option.some.injEq, Prod.mk.injEq] at read
      simp [← read.2]
  | case4 a b c d rest ih =>
      simp only [Option.bind_eq_some_iff, Option.map_eq_some_iff, Prod.mk.injEq] at read
      obtain ⟨_, _, ⟨inner, innerBehind⟩, found, -, rfl⟩ := read
      have := ih found
      simp only [List.length_cons]
      omega
  | case5 escape rest _ ih =>
      simp only [Option.bind_eq_some_iff, Option.map_eq_some_iff, Prod.mk.injEq] at read
      obtain ⟨_, _, ⟨inner, innerBehind⟩, found, -, rfl⟩ := read
      have := ih found
      simp only [List.length_cons]
      omega
  | case6 => simp at read
  | case7 => simp at read
  | case8 character rest _ _ _ _ _ ih =>
      simp only [Option.map_eq_some_iff, Prod.mk.injEq] at read
      obtain ⟨⟨inner, innerBehind⟩, found, -, rfl⟩ := read
      have := ih found
      simp only [List.length_cons]
      omega

theorem splitDigits_length (text : RawText) :
    (splitDigits text).1.length + (splitDigits text).2.length = text.length := by
  fun_induction splitDigits text with
  | case1 character rest isDigit digits behind split ih =>
      simp only [split, List.length_cons] at ih ⊢
      omega
  | case2 => simp
  | case3 => simp

theorem readWhole?_shorter {text behind : RawText} {digits : List Char}
    (read : readWhole? text = some (digits, behind)) : behind.length < text.length := by
  unfold readWhole? at read
  split at read
  · simp only [Option.some.injEq, Prod.mk.injEq] at read
    simp [← read.2]
  · have total := splitDigits_length text
    split at read
    · simp at read
    · rename_i split nonempty
      simp only [Option.some.injEq] at read
      rw [read] at total nonempty
      cases digits with
      | nil => exact absurd rfl (nonempty behind)
      | cons => simp only [List.length_cons] at total; omega

theorem readFraction?_le {text behind : RawText} {digits : List Char}
    (read : readFraction? text = some (digits, behind)) : behind.length ≤ text.length := by
  unfold readFraction? at read
  split at read
  · rename_i rest
    have total := splitDigits_length rest
    split at read
    · simp at read
    · simp only [Option.some.injEq] at read
      rw [read] at total
      change digits.length + behind.length = rest.length at total
      simp only [List.length_cons]
      omega
  · simp only [Option.some.injEq, Prod.mk.injEq] at read
    simp [← read.2]

theorem readExponentDigits?_le {negative : Bool} {text behind : RawText}
    {exponent : Option (Bool × List Char)}
    (read : readExponentDigits? negative text = some (exponent, behind)) :
    behind.length ≤ text.length := by
  unfold readExponentDigits? at read
  have total := splitDigits_length text
  split at read
  · simp at read
  · rename_i digits inner _ split
    simp only [Option.some.injEq, Prod.mk.injEq] at read
    rw [split, read.2] at total
    simp only at total
    omega

theorem readExponent?_le {text behind : RawText} {exponent : Option (Bool × List Char)}
    (read : readExponent? text = some (exponent, behind)) : behind.length ≤ text.length := by
  unfold readExponent? at read
  split at read
  · have := readExponentDigits?_le read
    simp only [List.length_cons]
    omega
  · have := readExponentDigits?_le read
    simp only [List.length_cons]
    omega
  · exact readExponentDigits?_le read

theorem readOptionalExponent?_le {text behind : RawText} {exponent : Option (Bool × List Char)}
    (read : readOptionalExponent? text = some (exponent, behind)) :
    behind.length ≤ text.length := by
  unfold readOptionalExponent? at read
  split at read
  · have := readExponent?_le read
    simp only [List.length_cons]
    omega
  · have := readExponent?_le read
    simp only [List.length_cons]
    omega
  · simp only [Option.some.injEq, Prod.mk.injEq] at read
    simp [← read.2]

theorem readUnsigned?_shorter {negative : Bool} {text behind : RawText} {written : NumberText}
    (read : readUnsigned? negative text = some (written, behind)) :
    behind.length < text.length := by
  simp only [readUnsigned?, Option.bind_eq_bind, Option.bind_eq_some_iff, Option.some.injEq,
    Prod.mk.injEq] at read
  obtain ⟨⟨whole, afterWhole⟩, readWhole, ⟨fraction, afterFraction⟩, readFraction,
    ⟨exponent, afterExponent⟩, readExponent, -, rfl⟩ := read
  have first := readWhole?_shorter readWhole
  have second := readFraction?_le readFraction
  have third := readOptionalExponent?_le readExponent
  exact Nat.lt_of_le_of_lt third (Nat.lt_of_le_of_lt second first)

theorem readNumber?_shorter {text behind : RawText} {written : NumberText}
    (read : readNumber? text = some (written, behind)) : behind.length < text.length := by
  unfold readNumber? at read
  split at read
  · have := readUnsigned?_shorter read
    simp only [List.length_cons]
    omega
  · exact readUnsigned?_shorter read

theorem readToken?_shorter {text behind : RawText} {token : Token}
    (read : readToken? text = some (token, behind)) : behind.length < text.length := by
  unfold readToken? at read
  split at read
  case h_10 rest =>
      simp only [Option.map_eq_some_iff, Prod.mk.injEq] at read
      obtain ⟨⟨pieces, inner⟩, found, -, rfl⟩ := read
      have := readPieces_shorter found
      simp only [List.length_cons]
      omega
  case h_11 =>
      simp only [Option.map_eq_some_iff, Prod.mk.injEq] at read
      obtain ⟨⟨written, inner⟩, found, -, rfl⟩ := read
      exact readNumber?_shorter found
  all_goals
    simp only [Option.some.injEq, Prod.mk.injEq] at read
    simp only [← read.2, List.length_cons]
    omega

def tokens? (text : RawText) : Option (List Token) :=
  match text with
  | [] => some []
  | symbol :: rest =>
      if isGap symbol then
        tokens? rest
      else
        match _read : readToken? (symbol :: rest) with
        | some (token, behind) => (tokens? behind).map (token :: ·)
        | none => none
termination_by text.length
decreasing_by
  · simp
  · exact readToken?_shorter _read

/-- A container that is not closed yet, with its contents in reverse; an
object may have read the name of its next field. -/
inductive Frame
  | array (items : List Json)
  | object (fields : List (Option String × Json)) (name : Option String)

/-- What may come next. -/
inductive Expected
  | value
  | valueOrClose
  | name
  | nameOrClose
  | colon
  | separator
  | nothing (result : Json)

/-- The state of the machine: what it expects, and the unfinished containers
from the inside out. -/
structure ReaderState where
  expected : Expected
  stack : List Frame

def complete (value : Json) : List Frame → ReaderState
  | [] => ⟨.nothing value, []⟩
  | .array items :: stack => ⟨.separator, .array (value :: items) :: stack⟩
  | .object fields name :: stack =>
      ⟨.separator, .object ((name, value) :: fields) none :: stack⟩

def startValue (token : Token) (stack : List Frame) : Option ReaderState :=
  match token with
  | .scalar value => some (complete value stack)
  | .string content => some (complete (.string content) stack)
  | .openArray => some ⟨.valueOrClose, .array [] :: stack⟩
  | .openObject => some ⟨.nameOrClose, .object [] none :: stack⟩
  | _ => none

def closeContainer (token : Token) (stack : List Frame) : Option ReaderState :=
  match token, stack with
  | .closeArray, .array items :: outer => some (complete (.array items.reverse) outer)
  | .closeObject, .object fields _ :: outer => some (complete (.object fields.reverse) outer)
  | _, _ => none

def takeName (token : Token) (stack : List Frame) : Option ReaderState :=
  match token, stack with
  | .string content, .object fields _ :: outer =>
      some ⟨.colon, .object fields content :: outer⟩
  | _, _ => none

def step (state : ReaderState) (token : Token) : Option ReaderState :=
  match state.expected with
  | .value => startValue token state.stack
  | .valueOrClose =>
      (startValue token state.stack).orElse fun _ => closeContainer token state.stack
  | .name => takeName token state.stack
  | .nameOrClose =>
      (takeName token state.stack).orElse fun _ => closeContainer token state.stack
  | .colon =>
      match token with
      | .colon => some ⟨.value, state.stack⟩
      | _ => none
  | .separator =>
      match token, state.stack with
      | .comma, .array _ :: _ => some ⟨.value, state.stack⟩
      | .comma, .object _ _ :: _ => some ⟨.name, state.stack⟩
      | _, stack => closeContainer token stack
  | .nothing _ => none

def run (state : ReaderState) (tokens : List Token) : Option ReaderState :=
  tokens.foldlM step state

def ofTokens? (tokens : List Token) : Option Json :=
  (run ⟨.value, []⟩ tokens).bind fun state =>
    match state.expected with
    | .nothing result => some result
    | _ => none

def read? (text : RawText) : Option Json :=
  (tokens? text).bind ofTokens?

theorem run_append (state : ReaderState) (first second : List Token) :
    run state (first ++ second) = (run state first).bind fun middle => run middle second := by
  simp [run, List.foldlM_append]

end Json

end MarketStats
