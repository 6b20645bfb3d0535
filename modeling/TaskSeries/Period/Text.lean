import TaskSeries.Period.Basic
import TaskSeries.Text.Decimal

/-!
How periods are written: by name where they have one, as a count of units otherwise, and exact periods
as ISO 8601 durations.
-/

namespace TaskSeries

open TaskSeries.Text

/-- A component of a duration, left out when it is zero. -/
def durationPart (count : Nat) (designator : String) : String :=
  if count = 0 then "" else natText count ++ designator

/-- The hours, minutes and seconds of a duration behind the time designator, or nothing when all are
zero. -/
def durationTime (seconds : Nat) : String :=
  if seconds = 0 then ""
  else "T" ++ durationPart (seconds / 3600) "H" ++ durationPart (seconds / 60 % 60) "M"
    ++ durationPart (seconds % 60) "S"

/-- A number of seconds as an ISO 8601 duration in days, hours, minutes and seconds. -/
def isoDuration (seconds : Int) : String :=
  if seconds = 0 then "PT0S"
  else
    (if seconds < 0 then "-" else "") ++ "P" ++ durationPart (seconds.natAbs / 86400) "D"
      ++ durationTime (seconds.natAbs % 86400)

namespace Period

/-- The names of calendar periods that are written by name, weekend skipping apart. -/
def displayName? (unit : CalendarUnit) (step : Nat) : Option String :=
  match unit, step with
  | .day, 1 => some "daily"
  | .week, 1 => some "weekly"
  | .week, 2 => some "biweekly"
  | .month, 1 => some "monthly"
  | .month, 2 => some "bimonthly"
  | .month, 3 => some "quarterly"
  | .month, 6 => some "semiannual"
  | .year, 1 => some "yearly"
  | .year, 2 => some "biyearly"
  | _, _ => none

/-- The text of a period. -/
def text (p : Period) : String :=
  if p = weekdays then "weekdays"
  else match p with
    | calendar unit step _ =>
      (displayName? unit step).getD ("every " ++ natText step ++ " " ++ unit.name ++ "s")
    | exact seconds => isoDuration seconds

end Period

end TaskSeries
