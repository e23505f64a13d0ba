import MarketStats.Calendar.Instant
import MarketStats.Text.Blank

/-!
# Timestamps

Instants are written as a date, the letter `T`, a time of day and the letter
`Z`.  Seconds carry three, six or nine fractional digits when they need any,
and years outside four digits carry a sign.  The reader is more tolerant: it
takes short numbers, blanks between the parts, a blank instead of the `T`, any
number of fractional digits, and a clock offset instead of the `Z`.
-/

namespace MarketStats

namespace Calendar

namespace Timestamp

open Text (isBlank skipBlanks)

/-- The decimal digits of a number, with zeros in front up to a width. -/
def padded (width value : Nat) : List Char :=
  let digits := Nat.toDigits 10 value
  List.replicate (width - digits.length) '0' ++ digits

def yearToChars (year : Int) : List Char :=
  if 0 ≤ year ∧ year ≤ 9999 then
    padded 4 year.toNat
  else
    (if year < 0 then '-' else '+') :: padded 4 year.natAbs

/-- The written form of a fraction of a second, with as few groups of three
digits as it needs. -/
def fractionToChars (nanos : Nat) : List Char :=
  if nanos = 0 then
    []
  else if nanos % 1000000 = 0 then
    '.' :: padded 3 (nanos / 1000000)
  else if nanos % 1000 = 0 then
    '.' :: padded 6 (nanos / 1000)
  else
    '.' :: padded 9 nanos

def toChars (instant : Instant) : List Char :=
  let date := instant.date
  let time := instant.secondOfDay
  let leap := instant.nanos / 1000000000
  yearToChars date.year ++ '-' :: padded 2 date.month ++ '-' :: padded 2 date.day
    ++ 'T' :: padded 2 (time / 3600) ++ ':' :: padded 2 (time / 60 % 60)
    ++ ':' :: padded 2 (time % 60 + leap)
    ++ fractionToChars (instant.nanos % 1000000000) ++ ['Z']

/-- The longest run of digits at the start of a text, but no more than `limit`
of them, and the text behind it. -/
def splitDigits : Nat → List Char → List Char × List Char
  | 0, text => ([], text)
  | _ + 1, [] => ([], [])
  | limit + 1, character :: rest =>
      if character.isDigit then
        let (digits, behind) := splitDigits limit rest
        (character :: digits, behind)
      else
        ([], character :: rest)

def digitsValue (digits : List Char) : Nat :=
  Nat.ofDigitChars 10 digits 0

def readNumber? (limit : Nat) (text : List Char) : Option (Nat × List Char) :=
  match splitDigits limit text with
  | ([], _) => none
  | (digits, behind) => some (digitsValue digits, behind)

def readPair? (text : List Char) : Option (Nat × List Char) :=
  readNumber? 2 (skipBlanks text)

/-- Read a year behind blanks: up to four digits, or a sign and any number of
digits. -/
def readYear? (text : List Char) : Option (Int × List Char) :=
  match skipBlanks text with
  | '-' :: rest =>
      (readNumber? rest.length rest).map fun (year, behind) => (-(year : Int), behind)
  | '+' :: rest =>
      (readNumber? rest.length rest).map fun (year, behind) => ((year : Int), behind)
  | unsigned =>
      (readNumber? 4 unsigned).map fun (year, behind) => ((year : Int), behind)

def readSeparator? (separator : Char) (text : List Char) : Option (List Char) :=
  match skipBlanks text with
  | character :: rest => if character = separator then some rest else none
  | [] => none

/-- Read an optional fraction of a second as nanoseconds.  Digits behind the
ninth are skipped. -/
def readFraction? : List Char → Option (Nat × List Char)
  | '.' :: rest =>
      match splitDigits 9 rest with
      | ([], _) => none
      | (digits, behind) =>
          some (digitsValue digits * Nat.pow 10 (9 - digits.length), behind.dropWhile Char.isDigit)
  | text => some (0, text)

def readOffsetPair? : List Char → Option (Nat × List Char)
  | tens :: ones :: rest =>
      if tens.isDigit ∧ ones.isDigit then some (digitsValue [tens, ones], rest) else none
  | _ => none

/-- Read the hours and minutes of an offset, with colons or blanks between
them. -/
def readOffsetMinutes? (text : List Char) : Option (Nat × List Char) := do
  let (hours, afterHours) ← readOffsetPair? text
  let (minutes, rest) ←
    readOffsetPair? (afterHours.dropWhile fun character => character == ':' || isBlank character)
  if minutes < 60 then some (hours * 60 + minutes, rest) else none

/-- Read the distance of the clock from UTC, in minutes. -/
def readOffset? : List Char → Option (Int × List Char)
  | 'Z' :: rest => some (0, rest)
  | 'z' :: rest => some (0, rest)
  | '+' :: rest => (readOffsetMinutes? rest).map fun (minutes, behind) => ((minutes : Int), behind)
  | '-' :: rest => (readOffsetMinutes? rest).map fun (minutes, behind) => (-(minutes : Int), behind)
  | '−' :: rest => (readOffsetMinutes? rest).map fun (minutes, behind) => (-(minutes : Int), behind)
  | first :: second :: third :: rest =>
      if [first, second, third].map Char.toUpper = ['U', 'T', 'C'] then some (0, rest) else none
  | _ => none

def readDateEnd? : List Char → Option (List Char)
  | 'T' :: rest => some rest
  | 't' :: rest => some rest
  | ' ' :: rest => some rest
  | _ => none

def readClock? (text : List Char) : Option ClockReading := do
  let (year, text) ← readYear? text
  let text ← readSeparator? '-' text
  let (month, text) ← readPair? text
  let text ← readSeparator? '-' text
  let (day, text) ← readPair? text
  let text ← readDateEnd? text
  let (hour, text) ← readPair? text
  let text ← readSeparator? ':' text
  let (minute, text) ← readPair? text
  let text ← readSeparator? ':' text
  let (second, text) ← readPair? text
  let (nanos, text) ← readFraction? text
  let (offsetMinutes, text) ← readOffset? (skipBlanks text)
  let date ← Date.of? year month day
  if skipBlanks text = [] then
    some { date, hour, minute, second, nanos, offsetMinutes }
  else
    none

def read? (text : List Char) : Option Instant :=
  (readClock? text).bind ClockReading.toInstant?

end Timestamp

def Instant.toText (instant : Instant) : String :=
  String.ofList (Timestamp.toChars instant)

end Calendar

end MarketStats
