/-!
# Failures

Operations fail with an error that the caller can react to, or they break off
because an amount or a moment overflows or a range is turned around.  An error
names its cause; its wording is given in one place.
-/

namespace MarketStats

/-- The errors that callers react to. -/
inductive StatsError
  | notFound (key : String)
  | transient (detail : String)
  | invalidDimension (request : String)
  | setFailed (key detail : String)
  | serialization (detail : String)
  | storage (detail : String)
  | validation (detail : String)
deriving DecidableEq, Repr

/-- How an operation fails: with an error, or by breaking off. -/
inductive Failure
  | error (cause : StatsError)
  | amountOverflow
  | invertedRange
  | clockOverflow
deriving DecidableEq, Repr

namespace StatsError

def message : StatsError → String
  | .notFound key => "Not found: " ++ key
  | .transient detail => "Transient backend failure: " ++ detail
  | .invalidDimension request => "Invalid leaderboard dimension: " ++ request
  | .setFailed key detail => "Set failed for key " ++ key ++ ": " ++ detail
  | .serialization detail => "Serialization error: " ++ detail
  | .storage detail => "Storage error: " ++ detail
  | .validation detail => "Validation error: " ++ detail

def isRetryable : StatsError → Bool
  | .transient _ => true
  | _ => false

def isNotFound : StatsError → Bool
  | .notFound _ => true
  | _ => false

def unreadable : StatsError :=
  .serialization "the stored value does not have the expected form"

end StatsError

end MarketStats
