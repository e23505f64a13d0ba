/-!
# Time spans

Lifetimes of cache entries are measured on a clock that never runs back.
Readings of it and spans between them are numbers of nanoseconds.  The clock
counts its seconds as signed numbers of 64 bits, so a span may reach past the
last moment that it can tell.
-/

namespace MarketStats

namespace Clock

def microseconds (count : Nat) : Nat := count * 1000

def milliseconds (count : Nat) : Nat := count * 1000000

def seconds (count : Nat) : Nat := count * 1000000000

def wholeMilliseconds (span : Nat) : Nat := span / 1000000

/-- The first moment that the clock cannot tell any more. -/
def endOfTime : Nat := seconds (UInt64.size / 2)

/-- The moment at the end of a span, if the clock can tell it. -/
def after? (now span : Nat) : Option Nat :=
  if now + span < endOfTime then some (now + span) else none

theorem wholeMilliseconds_milliseconds (count : Nat) :
    wholeMilliseconds (milliseconds count) = count := by
  simp only [wholeMilliseconds, milliseconds]
  omega

theorem after?_eq_some_iff {now span moment : Nat} :
    after? now span = some moment ↔ now + span < endOfTime ∧ moment = now + span := by
  unfold after?
  split
  · next inTime => simp [inTime, eq_comm]
  · next tooLong => simp [tooLong]

theorem isSome_after?_iff {now span : Nat} :
    (after? now span).isSome = true ↔ now + span < endOfTime := by
  simp only [Option.isSome_iff_exists, after?_eq_some_iff, exists_and_left, exists_eq, and_true]

end Clock

end MarketStats
