/-!
Recurrence periods: a number of calendar units, which follows the varying lengths of months and
years, or an exact number of seconds.
-/

namespace TaskSeries

/-- The units of a calendar period. -/
inductive CalendarUnit
  | day | week | month | year
deriving DecidableEq, Repr

namespace CalendarUnit

/-- The name of a unit. -/
def name : CalendarUnit → String
  | day => "day"
  | week => "week"
  | month => "month"
  | year => "year"

/-- The unit with a given name. -/
def ofName? (s : String) : Option CalendarUnit :=
  match s with
  | "day" => some day
  | "week" => some week
  | "month" => some month
  | "year" => some year
  | _ => none

/-- The nominal length in seconds: a month has 30 days and a year 365. -/
def nominalSeconds : CalendarUnit → Int
  | day => 86400
  | week => 7 * 86400
  | month => 30 * 86400
  | year => 365 * 86400

end CalendarUnit

/-- A recurrence period. Steps are below 2 ^ 32 and seconds fit into 64 bits wherever a period is read
from outside. -/
inductive Period
  | calendar (unit : CalendarUnit) (step : Nat) (skipWeekends : Bool)
  | exact (seconds : Int)
deriving DecidableEq, Repr

namespace Period

/-- One day at a time, Saturdays and Sundays left out. -/
def weekdays : Period := calendar .day 1 true

/-- The length by which periods are ordered among each other. -/
def nominalSeconds : Period → Int
  | calendar unit step _ => unit.nominalSeconds * step
  | exact seconds => seconds

end Period

end TaskSeries
