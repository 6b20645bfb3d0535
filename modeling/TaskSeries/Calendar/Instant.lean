import TaskSeries.Calendar.Date

/-!
Instants in UTC with nanoseconds, between the first and the last day that the tracker can represent,
and the arithmetic on them. Arithmetic that leaves the range yields nothing.
-/

namespace TaskSeries.Calendar

/-- The first second of the range, -262143-01-01T00:00:00Z. -/
def firstSecond : Int := -8334601228800

/-- The last second of the range, +262142-12-31T23:59:59Z. -/
def lastSecond : Int := 8210266876799

/-- The longest span in seconds, of either sign, that can be added at once: its milliseconds fit into
64 bits. -/
def longestSpan : Int := 9223372036854775

/-- A second within the range and the nanoseconds in it. A leap second follows the last second of a
minute and is counted as nanoseconds from a thousand million on. -/
def Representable (second : Int) (nano : Nat) : Prop :=
  firstSecond ≤ second ∧ second ≤ lastSecond ∧
    (nano < 1000000000 ∨ nano < 2000000000 ∧ second % 60 = 59)

instance (second : Int) (nano : Nat) : Decidable (Representable second nano) :=
  inferInstanceAs (Decidable (_ ∧ _ ∧ _))

/-- A point in time: whole seconds since 1970-01-01T00:00:00Z, and nanoseconds. -/
structure Instant where
  second : Int
  nano : Nat
  representable : Representable second nano
deriving DecidableEq

namespace Instant

/-- The instant with the given second and nanoseconds, unless it is out of range. -/
def of? (second : Int) (nano : Nat) : Option Instant :=
  if h : Representable second nano then some ⟨second, nano, h⟩ else none

/-- The beginning of 1970. -/
def epoch : Instant := ⟨0, 0, by decide⟩

instance : Inhabited Instant := ⟨epoch⟩

/-- Earlier comes first; within a second the nanoseconds decide. -/
def compare (a b : Instant) : Ordering :=
  (Ord.compare a.second b.second).then (Ord.compare a.nano b.nano)

instance : Ord Instant := ⟨compare⟩

/-- The first instant is strictly earlier. -/
def Before (a b : Instant) : Prop :=
  a.second < b.second ∨ a.second = b.second ∧ a.nano < b.nano

instance : LT Instant := ⟨Before⟩

instance : LE Instant := ⟨fun a b => ¬ b < a⟩

instance (a b : Instant) : Decidable (a < b) :=
  inferInstanceAs (Decidable (_ ∨ _ ∧ _))

instance (a b : Instant) : Decidable (a ≤ b) :=
  inferInstanceAs (Decidable (¬ _))

/-- The day of an instant, counted from 1970-01-01. -/
def day (i : Instant) : Int := i.second / 86400

/-- The seconds since midnight. -/
def secondOfDay (i : Instant) : Int := i.second % 86400

/-- The date of an instant. -/
def date (i : Instant) : Date := Date.ofDayNumber i.day

/-- The weekday of an instant. -/
def weekday (i : Instant) : Weekday := Weekday.ofDayNumber i.day

/-- Midnight at the beginning of a day. -/
def midnight? (day : Int) : Option Instant := of? (86400 * day) 0

/-- The same time of day on another day. -/
def onDay? (i : Instant) (day : Int) : Option Instant :=
  of? (86400 * day + i.secondOfDay) i.nano

/-- An instant on another day is on that day. -/
theorem day_of_onDay? {i j : Instant} {day : Int} (h : i.onDay? day = some j) : j.day = day := by
  unfold onDay? of? at h
  split at h
  · rw [← Option.some.inj h]
    show (86400 * day + i.second % 86400) / 86400 = day
    omega
  · cases h

/-- The last instant that is in no leap second. -/
def lastRegular : Instant := ⟨lastSecond, 999999999, by decide⟩

/-- The same time of day a number of days later, or earlier when it is negative. No step ends in the
leap second at the end of the range. -/
def plusDays (i : Instant) (count : Int) : Option Instant :=
  if count = 0 then some i
  else (i.onDay? (i.day + count)).filter (· ≤ lastRegular)

/-- An instant some days later is on the day counted on. -/
theorem day_of_plusDays {i j : Instant} {count : Int} (h : i.plusDays count = some j) :
    j.day = i.day + count := by
  unfold plusDays at h
  split at h
  · next hzero =>
    rw [← Option.some.inj h, hzero, Int.add_zero]
  · exact day_of_onDay? (Option.filter_eq_some_iff.mp h).1

/-- The same time of day a number of months later, or earlier when it is negative; a day that the
month lacks becomes its last day. -/
def plusMonths (i : Instant) (count : Int) : Option Instant :=
  i.onDay? (i.date.plusMonths count).dayNumber

/-- The instant a number of seconds later, or earlier when it is negative. A step out of a leap second
starts from its end when it goes back, and from the second before it when it goes on. -/
def plusSeconds (i : Instant) (count : Int) : Option Instant :=
  if count < -longestSpan ∨ longestSpan < count then none
  else if i.nano < 1000000000 ∨ count = 0 then of? (i.second + count) i.nano
  else if 0 < count then of? (i.second + count) (i.nano - 1000000000)
  else of? (i.second + 1 + count) (i.nano - 1000000000)

/-- Whole milliseconds since 1970, rounded towards the past. -/
def toMillis (i : Instant) : Int :=
  1000 * i.second + (i.nano / 1000000 : Nat)

/-- The instant a number of milliseconds after the beginning of 1970. -/
def ofMillis? (ms : Int) : Option Instant :=
  of? (ms / 1000) (1000000 * (ms % 1000).toNat)

end Instant

end TaskSeries.Calendar
