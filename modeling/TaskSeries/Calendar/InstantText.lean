import TaskSeries.Calendar.Instant
import TaskSeries.Text.Decimal

/-!
How instants are written: in full for records, to the minute for listings.
-/

namespace TaskSeries.Calendar

open TaskSeries.Text

/-- A year in four digits; beyond them it carries a sign. -/
def yearText (year : Int) : String :=
  if 0 ≤ year ∧ year ≤ 9999 then padded 4 year.toNat
  else (if year < 0 then "-" else "+") ++ padded 4 year.natAbs

/-- A date as year, month and day with hyphens. -/
def Date.text (d : Date) : String :=
  yearText d.year ++ "-" ++ padded 2 d.month ++ "-" ++ padded 2 d.day

/-- Nanoseconds as a fraction of none, three, six or nine digits: the fewest that lose nothing. -/
def fractionText (nano : Nat) : String :=
  if nano = 0 then ""
  else if nano % 1000000 = 0 then "." ++ padded 3 (nano / 1000000)
  else if nano % 1000 = 0 then "." ++ padded 6 (nano / 1000)
  else "." ++ padded 9 nano

namespace Instant

/-- Hours and minutes with a colon. -/
def clockText (i : Instant) : String :=
  let s := i.secondOfDay.toNat
  padded 2 (s / 3600) ++ ":" ++ padded 2 (s / 60 % 60)

/-- Date and time to the nanosecond; a leap second is second 60. -/
def text (i : Instant) : String :=
  i.date.text ++ "T" ++ i.clockText ++ ":"
    ++ padded 2 (i.secondOfDay.toNat % 60 + i.nano / 1000000000)
    ++ fractionText (i.nano % 1000000000) ++ "Z"

/-- Date and time to the minute. -/
def minuteText (i : Instant) : String :=
  i.date.text ++ " " ++ i.clockText

end Instant

end TaskSeries.Calendar
