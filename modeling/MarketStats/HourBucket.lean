import MarketStats.Calendar.Instant

/-!
# Hour buckets

Volumes are kept per hour of the UTC clock.  A bucket is the number of hours
between the start of 1970 and its own start.  Its key is the number whose
decimal digits are the year, month, day and hour of that start.
-/

namespace MarketStats

open Calendar

def HourBucket.leastIndex : Int := -2315167008

def HourBucket.greatestIndex : Int := 2280629687

/-- An hour of the UTC clock, counted from the start of 1970. -/
structure HourBucket where
  index : Int
  index_ge : HourBucket.leastIndex ≤ index
  index_le : index ≤ HourBucket.greatestIndex
deriving DecidableEq

namespace HourBucket

theorem eq_of_index_eq {first second : HourBucket} (equal : first.index = second.index) :
    first = second := by
  cases first
  cases second
  cases equal
  rfl

instance : LT HourBucket where
  lt first second := first.index < second.index

instance : LE HourBucket where
  le first second := first.index ≤ second.index

instance (first second : HourBucket) : Decidable (first < second) :=
  inferInstanceAs (Decidable (first.index < second.index))

instance (first second : HourBucket) : Decidable (first ≤ second) :=
  inferInstanceAs (Decidable (first.index ≤ second.index))

instance : Ord HourBucket where
  compare first second := compare first.index second.index

instance : Max HourBucket where
  max first second := if first ≤ second then second else first

/-- The bucket with the given number, if it is representable. -/
def ofIndex? (index : Int) : Option HourBucket :=
  if inRange : leastIndex ≤ index ∧ index ≤ greatestIndex then
    some ⟨index, inRange.1, inRange.2⟩
  else
    none

def containing (instant : Instant) : HourBucket :=
  { index := instant.seconds / 3600
    index_ge := by
      have atLeast := instant.seconds_ge
      simp only [leastSecond, leastIndex] at *
      omega
    index_le := by
      have atMost := instant.seconds_le
      simp only [greatestSecond, greatestIndex] at *
      omega }

def start (hour : HourBucket) : Instant :=
  Instant.ofSecond (hour.index * 3600)
    (by
      have atLeast := hour.index_ge
      simp only [leastSecond, leastIndex] at *
      omega)
    (by
      have atMost := hour.index_le
      simp only [greatestSecond, greatestIndex] at *
      omega)

/-- The bucket one hour later, if it is representable. -/
def next? (hour : HourBucket) : Option HourBucket :=
  ofIndex? (hour.index + 1)

/-- The bucket some hours earlier, if it is representable. -/
def hoursBefore? (hour : HourBucket) (hours : Nat) : Option HourBucket :=
  ofIndex? (hour.index - hours)

/-- The bucket one hour earlier, if it is representable. -/
def previous? (hour : HourBucket) : Option HourBucket :=
  hour.hoursBefore? 1

/-- The number of buckets from one to another, both included. -/
def span (first last : HourBucket) : Nat :=
  (last.index + 1 - first.index).toNat

/-- The exclusive end of the bucket.  The last bucket ends at the last
representable instant. -/
def endInstant (hour : HourBucket) : Instant :=
  match hour.next? with
  | some later => later.start
  | none => Instant.last

def date (hour : HourBucket) : Date :=
  Date.ofDayNumber (hour.index / 24)

def hourOfDay (hour : HourBucket) : Int :=
  hour.index % 24

/-- The key of the bucket: year, month, day and hour as decimal digits. -/
def key (hour : HourBucket) : Int :=
  hour.date.year * 1000000 + hour.date.month * 10000 + hour.date.day * 100 + hour.hourOfDay

/-- The bucket with the given key, if there is one.  Negative numbers are no
keys. -/
def ofKey? (key : Int) : Option HourBucket :=
  if 0 ≤ key ∧ key % 100 < 24 then
    (Date.of? (key / 1000000) (key / 10000 % 100).toNat (key / 100 % 100).toNat).bind fun date =>
      ofIndex? (date.dayNumber * 24 + key % 100)
  else
    none

def invalidKeyMessage (key : Int) : String :=
  "invalid hour key: " ++ key.repr

theorem ofIndex?_eq_some_iff {index : Int} {hour : HourBucket} :
    ofIndex? index = some hour ↔ hour.index = index := by
  unfold ofIndex?
  constructor
  · intro built
    split at built
    · cases built
      rfl
    · cases built
  · rintro rfl
    rw [dif_pos ⟨hour.index_ge, hour.index_le⟩]

theorem ofIndex?_eq_none_iff {index : Int} :
    ofIndex? index = none ↔ index < leastIndex ∨ greatestIndex < index := by
  unfold ofIndex?
  split <;> simp <;> omega

@[simp]
theorem index_containing (instant : Instant) :
    (containing instant).index = instant.seconds / 3600 := rfl

@[simp]
theorem seconds_start (hour : HourBucket) : hour.start.seconds = hour.index * 3600 := rfl

@[simp]
theorem nanos_start (hour : HourBucket) : hour.start.nanos = 0 := rfl

@[simp]
theorem containing_start (hour : HourBucket) : containing hour.start = hour := by
  apply eq_of_index_eq
  rw [index_containing, seconds_start]
  omega

theorem previous?_eq_some_iff {hour earlier : HourBucket} :
    hour.previous? = some earlier ↔ earlier.index = hour.index - 1 := by
  simp [previous?, hoursBefore?, ofIndex?_eq_some_iff]

theorem next?_eq_some_iff {hour later : HourBucket} :
    hour.next? = some later ↔ later.index = hour.index + 1 := by
  simp [next?, ofIndex?_eq_some_iff]

theorem span_eq_zero_iff {first last : HourBucket} : span first last = 0 ↔ last < first := by
  change (last.index + 1 - first.index).toNat = 0 ↔ last.index < first.index
  omega

theorem span_previous {first last earlier : HourBucket} (ordered : first ≤ last)
    (stepped : last.previous? = some earlier) : span first last = span first earlier + 1 := by
  have step := previous?_eq_some_iff.mp stepped
  change first.index ≤ last.index at ordered
  simp only [span]
  omega

end HourBucket

end MarketStats
