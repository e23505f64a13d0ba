import MarketStats.Double.Shortest

/-!
# Written scores

A binary64 number is written with its shortest digits and at least one digit
behind the point.  Very large and very small numbers are written with one digit
in front of the point and an exponent.
-/

namespace MarketStats

namespace Double

def mostWholeDigits : Int := 16

/-- Up to this many zeros stand between the point and the first other digit. -/
def mostLeadingZeros : Int := 4

def Scientific.written (number : Scientific) : List Char :=
  let digits := Nat.toDigits 10 number.digits
  let wholeDigits : Int := digits.length + number.exponent
  if -mostLeadingZeros ≤ wholeDigits ∧ wholeDigits ≤ mostWholeDigits then
    if 0 ≤ number.exponent then
      number.toPositional ++ ['.', '0']
    else
      number.toPositional
  else
    let behindPoint := digits.drop 1
    digits.take 1 ++ (if behindPoint = [] then [] else '.' :: behindPoint)
      ++ 'e' :: (wholeDigits - 1).repr.toList

/-- The written form of the absolute value of a number.  A tie goes to the even
digit. -/
def writtenMagnitude (number : Double) : List Char :=
  if number.isFinite then (number.shortest .toEven).written else ['i', 'n', 'f']

def written (number : Double) : String :=
  String.ofList ((if number.isNegative then ['-'] else []) ++ number.writtenMagnitude)

end Double

end MarketStats
