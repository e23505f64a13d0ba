/-!
# Rounding quotients

Two ways to round a quotient of natural numbers to a whole number.  They
differ only where the quotient lies exactly between two whole numbers.
-/

namespace MarketStats

/-- The whole number nearest to `value / divisor`; a tie goes to the even
neighbour. -/
def roundHalfEven (value divisor : Nat) : Nat :=
  let quotient := value / divisor
  let rest := value % divisor
  if 2 * rest < divisor ∨ (2 * rest = divisor ∧ quotient % 2 = 0) then
    quotient
  else
    quotient + 1

/-- The whole number nearest to `value / divisor`; a tie goes up. -/
def roundHalfUp (value divisor : Nat) : Nat :=
  (2 * value + divisor) / (2 * divisor)

/-- Where a quotient goes that lies exactly between two whole numbers. -/
inductive TieRule
  | toEven
  | upward
deriving DecidableEq, Repr

def TieRule.round (rule : TieRule) (value divisor : Nat) : Nat :=
  match rule with
  | .toEven => roundHalfEven value divisor
  | .upward => roundHalfUp value divisor

theorem roundHalfEven_one (value : Nat) : roundHalfEven value 1 = value := by
  simp [roundHalfEven, Nat.mod_one]

theorem roundHalfEven_mul (quotient divisor : Nat) (positive : 0 < divisor) :
    roundHalfEven (quotient * divisor) divisor = quotient := by
  simp [roundHalfEven, Nat.mul_div_cancel _ positive, positive]

theorem roundHalfEven_near (value divisor : Nat) (positive : 0 < divisor) :
    2 * value ≤ 2 * (roundHalfEven value divisor * divisor) + divisor ∧
      2 * (roundHalfEven value divisor * divisor) ≤ 2 * value + divisor := by
  have split := Nat.div_add_mod value divisor
  have below := Nat.mod_lt value positive
  have expand : (value / divisor + 1) * divisor = divisor * (value / divisor) + divisor := by
    rw [Nat.add_mul, Nat.mul_comm, Nat.one_mul]
  have commute : value / divisor * divisor = divisor * (value / divisor) := Nat.mul_comm _ _
  simp only [roundHalfEven]
  split <;> simp only [expand, commute] <;> omega

end MarketStats
