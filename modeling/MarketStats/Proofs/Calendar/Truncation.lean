import MarketStats.Proofs.Calendar.Instant

/-!
# Cutting off the minutes

An instant is cut down to its hour by setting three of its fields to zero: the
minute, then the second, and then the fraction of the second.  Each of these
steps has to end between the first and the last representable instant.  On the
way a fraction of a leap second may stand behind a second that does not end a
minute, so the steps lead over readings of the calendar and the clock and not
over instants.
-/

namespace MarketStats

namespace Calendar

/-- The fields of calendar and clock.  The fraction of a leap second has a
thousand million nanoseconds or more. -/
structure ClockFields where
  date : Date
  hour : Nat
  minute : Nat
  second : Nat
  nanos : Nat
deriving DecidableEq

def Instant.fields (instant : Instant) : ClockFields :=
  { date := instant.date
    hour := instant.secondOfDay / 3600
    minute := instant.secondOfDay / 60 % 60
    second := instant.secondOfDay % 60
    nanos := instant.nanos }

namespace ClockFields

def seconds (fields : ClockFields) : Int :=
  fields.date.dayNumber * 86400 + fields.hour * 3600 + fields.minute * 60 + fields.second

/-- Fields are representable from the first instant of the first year up to the
last instant of the last one. -/
def IsRepresentable (fields : ClockFields) : Prop :=
  leastSecond ≤ fields.seconds ∧
    (fields.seconds < Instant.last.seconds ∨
      fields.seconds = Instant.last.seconds ∧ fields.nanos ≤ Instant.last.nanos)

instance (fields : ClockFields) : Decidable fields.IsRepresentable :=
  inferInstanceAs (Decidable (_ ∧ _))

def checked? (fields : ClockFields) : Option ClockFields :=
  if fields.IsRepresentable then some fields else none

/-- Set the minute, the second and its fraction to zero, one after the other. -/
def startOfHour? (fields : ClockFields) : Option ClockFields := do
  let atMinute ← checked? { fields with minute := 0 }
  let atSecond ← checked? { atMinute with second := 0 }
  checked? { atSecond with nanos := 0 }

end ClockFields

namespace Instant

variable (instant : Instant)

/-- With the minute at zero the fields are those of an earlier moment of the
same hour, and never those of the last moment of all. -/
theorem isRepresentable_of_minute_zero {second : Nat} (inMinute : second < 60) (nanos : Nat) :
    ClockFields.IsRepresentable { instant.fields with minute := 0, second, nanos } := by
  have day : instant.date.dayNumber = instant.seconds / 86400 := Date.dayNumber_ofDayNumber _
  have atLeast := instant.seconds_ge
  have atMost := instant.seconds_le
  simp only [ClockFields.IsRepresentable, ClockFields.seconds, fields, secondOfDay, day, last]
  simp only [leastSecond, greatestSecond] at *
  omega

/-- Every instant can be cut down to its hour. -/
theorem startOfHour?_fields :
    instant.fields.startOfHour? =
      some { instant.fields with minute := 0, second := 0, nanos := 0 } := by
  have inMinute : instant.fields.second < 60 := Nat.mod_lt _ (by decide)
  have startOfMinute : 0 < 60 := by decide
  have atMinute := instant.isRepresentable_of_minute_zero inMinute instant.fields.nanos
  have atSecond := instant.isRepresentable_of_minute_zero startOfMinute instant.fields.nanos
  have atStart := instant.isRepresentable_of_minute_zero startOfMinute 0
  simp only [ClockFields.startOfHour?, ClockFields.checked?, atMinute, atSecond, atStart, if_true,
    Option.bind_eq_bind, Option.bind_some]

end Instant

end Calendar

end MarketStats
