import MarketStats.Double.Shortest

/-!
# Reading binary64 numbers

A written number is read exactly and then rounded once, to the nearest binary64
number.
-/

namespace MarketStats

namespace Double

/-- The binary64 number nearest to a decimal number, with a sign. -/
def ofScientific (negative : Bool) (number : Scientific) : Double :=
  ofQuotient negative (number.digits * Nat.pow 10 number.exponent.toNat)
    (Nat.pow 10 (-number.exponent).toNat)

/-- The exponent at the end of a written number, or nothing at all. -/
def readExponent? : List Char → Option Int
  | [] => some 0
  | 'e' :: digits => (String.ofList digits).toInt?
  | _ => none

/-- The digits behind a point, if there is one, and what follows them. -/
def splitFraction : List Char → List Char × List Char
  | '.' :: text => (text.takeWhile Char.isDigit, text.dropWhile Char.isDigit)
  | text => ([], text)

/-- Digits with at most one point behind some of them, and an exponent. -/
def readScientific? (text : List Char) : Option Scientific :=
  let whole := text.takeWhile Char.isDigit
  let (fraction, behind) := splitFraction (text.dropWhile Char.isDigit)
  if whole = [] then
    none
  else
    (readExponent? behind).map fun exponent =>
      { digits := Nat.ofDigitChars 10 (whole ++ fraction) 0
        exponent := exponent - fraction.length }

/-- The binary64 number nearest to a written one. -/
def read? : List Char → Option Double
  | '-' :: text => (readScientific? text).map (ofScientific true)
  | text => (readScientific? text).map (ofScientific false)

end Double

end MarketStats
