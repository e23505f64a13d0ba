import MarketStats.Decimal.Basic
import MarketStats.Rounding

/-!
# Reading decimal amounts

An amount is written as an optional sign, digits with at most one point, and
underscores anywhere after the first digit.  A text with more digits than the
type can hold is rounded when the surplus lies behind the point, and refused
otherwise.  When the plain form does not read, the text may still be a plain
amount followed by a power of ten.  A negative power may leave more fractional
digits than the type can hold; these are rounded away, and an amount that
vanishes by it keeps its sign.
-/

namespace MarketStats

namespace Decimal

def digitValue? (character : Char) : Option Nat :=
  if character.isDigit then some (character.toNat - '0'.toNat) else none

/-- The coefficient and the scale of an amount whose sign has been read. -/
structure Magnitude where
  coefficient : Nat
  scale : Nat
deriving DecidableEq, Repr

/-- What has been read so far of the digits of an amount. -/
structure Progress where
  coefficient : Nat
  scale : Nat
  pastPoint : Bool
  started : Bool

def Progress.start : Progress :=
  { coefficient := 0, scale := 0, pastPoint := false, started := false }

def Progress.push (progress : Progress) (digit : Nat) : Progress :=
  { coefficient := progress.coefficient * 10 + digit
    scale := if progress.pastPoint then progress.scale + 1 else progress.scale
    pastPoint := progress.pastPoint
    started := true }

/-- Round a magnitude by the first digit that did not fit.  If the carry
reaches the coefficient bound, one more digit is rounded away. -/
def roundBy (digit coefficient scale : Nat) : Option Magnitude :=
  if digit < 5 then
    some ⟨coefficient, scale⟩
  else if coefficient + 1 < coefficientBound then
    some ⟨coefficient + 1, scale⟩
  else
    match scale with
    | 0 => none
    | scale + 1 => some ⟨(coefficient + 5) / 10, scale⟩

/-- The first digit of a surplus of digits and separators; a surplus without
digits counts as zero. -/
def surplusDigit? (surplus : List Char) : Option Nat :=
  if surplus.all fun character => character.isDigit || character == '_' then
    some ((surplus.findSome? digitValue?).getD 0)
  else
    none

/-- Read the digits of an amount.  The first digit behind the point that does
not fit decides the rounding. -/
def readMagnitude (progress : Progress) : List Char → Option Magnitude
  | [] => if progress.started then some ⟨progress.coefficient, progress.scale⟩ else none
  | character :: rest =>
      if progress.pastPoint ∧ maxScale ≤ progress.scale then
        (surplusDigit? (character :: rest)).bind fun digit =>
          roundBy digit progress.coefficient progress.scale
      else if character = '.' then
        if progress.pastPoint then
          none
        else
          readMagnitude { progress with pastPoint := true } rest
      else if character = '_' then
        if progress.started then readMagnitude progress rest else none
      else
        match digitValue? character with
        | none => none
        | some digit =>
            if (progress.push digit).coefficient < coefficientBound then
              readMagnitude (progress.push digit) rest
            else if progress.pastPoint then
              (surplusDigit? rest).bind fun _ =>
                roundBy digit progress.coefficient progress.scale
            else
              none

/-- Split a leading sign off a text; the flag says whether it is a minus. -/
def splitSign : List Char → Bool × List Char
  | '-' :: rest => (true, rest)
  | '+' :: rest => (false, rest)
  | text => (false, text)

def readPlain? (text : List Char) : Option Decimal :=
  let (negative, unsigned) := splitSign text
  (readMagnitude Progress.start unsigned).bind fun magnitude =>
    ofValue? negative magnitude.coefficient magnitude.scale

def readCount? (text : List Char) : Option Nat :=
  let digits := match text with
    | '+' :: rest => rest
    | unsigned => unsigned
  if digits ≠ [] ∧ digits.all Char.isDigit then
    some (Nat.ofDigitChars 10 digits 0)
  else
    none

/-- Multiply by a power of ten by moving the point.  A point moved past the
last digit leaves a whole number. -/
def raise? (amount : Decimal) (exponent : Nat) : Option Decimal :=
  if exponent ≤ amount.scale then
    ofParts? amount.negative amount.coefficient (amount.scale - exponent)
  else if exponent ≤ maxScale then
    ofParts? amount.negative (amount.coefficient * Nat.pow 10 (exponent - amount.scale)) 0
  else
    none

/-- Divide by a power of ten by moving the point.  Fractional digits beyond the
last place are rounded away, a half away from zero. -/
def lower? (amount : Decimal) (exponent : Nat) : Option Decimal :=
  if maxScale < exponent then
    none
  else if amount.scale + exponent ≤ maxScale then
    ofParts? amount.negative amount.coefficient (amount.scale + exponent)
  else
    let surplus := amount.scale + exponent - maxScale
    ofParts? amount.negative (roundHalfUp amount.coefficient (Nat.pow 10 surplus)) maxScale

def readScientific? (text : List Char) : Option Decimal :=
  let isMark (character : Char) : Bool := character == 'e' || character == 'E'
  match text.dropWhile (fun character => !isMark character) with
  | [] => none
  | _ :: exponentText =>
      (readPlain? (text.takeWhile fun character => !isMark character)).bind fun base =>
        match exponentText with
        | '-' :: digits => (readCount? digits).bind base.lower?
        | digits => (readCount? digits).bind base.raise?

/-- Read an amount in either notation; the plain one is tried first. -/
def read? (text : List Char) : Option Decimal :=
  (readPlain? text).orElse fun _ => readScientific? text

end Decimal

end MarketStats
