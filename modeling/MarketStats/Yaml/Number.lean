/-!
# Numbers of YAML documents

Numbers without a sign in four bases.
-/

namespace MarketStats

namespace Yaml

def digitIn? (base : Nat) (character : Char) : Option Nat :=
  let value :=
    if character.isDigit then character.toNat - '0'.toNat
    else if 'a' ≤ character ∧ character ≤ 'f' then character.toNat - 'a'.toNat + 10
    else if 'A' ≤ character ∧ character ≤ 'F' then character.toNat - 'A'.toNat + 10
    else 16
  if value < base then some value else none

/-- The number with the given digits, if there are any. -/
def numberIn? (base : Nat) (digits : List Char) : Option Nat :=
  if digits = [] then
    none
  else
    digits.foldlM (fun total digit => (digitIn? base digit).map (total * base + ·)) 0

/-- The digits of a number with a leading zero, which is no number. -/
def isPaddedNumber : List Char → Bool
  | '0' :: second :: rest => (second :: rest).all Char.isDigit
  | _ => false

/-- Read a number: decimal digits, or hexadecimal, octal or binary digits
behind their mark, with an optional plus sign in front. -/
def readNumber? (text : List Char) : Option Nat :=
  let unsigned := match text with
    | '+' :: rest => rest
    | other => other
  match unsigned with
  | '0' :: 'x' :: digits => numberIn? 16 digits
  | '0' :: 'o' :: digits => numberIn? 8 digits
  | '0' :: 'b' :: digits => numberIn? 2 digits
  | digits => if isPaddedNumber digits then none else numberIn? 10 digits

end Yaml

end MarketStats
