import TaskSeries.Period.Basic
import TaskSeries.Calendar.Instant
import TaskSeries.Text.Power

/-!
Moving an instant by a period. Calendar periods keep the time of day and clamp the day of the month;
exact periods add seconds. Nothing results when the instant reached is out of range.
-/

namespace TaskSeries

open TaskSeries.Calendar TaskSeries.Text

/-- The most months that can be added at once. -/
def mostMonths : Nat := 2147483647

/-- The number of months in a step of months or years. -/
def monthsOfYears? (step : Nat) : Option Nat :=
  if FitsNat 32 (12 * step) then some (12 * step) else none

/-- Moves by months in the direction of `sign`. -/
def Calendar.Instant.stepMonths (r : Instant) (sign : Int) (months : Nat) : Option Instant :=
  if months ≤ mostMonths then r.plusMonths (sign * months) else none

/-- Moves by a number of calendar units in the direction of `sign`. -/
def Calendar.Instant.stepUnits (r : Instant) (sign : Int) (unit : CalendarUnit) (step : Nat) :
    Option Instant :=
  match unit with
  | .day => r.plusDays (sign * step)
  | .week => r.plusDays (sign * (7 * step : Nat))
  | .month => r.stepMonths sign step
  | .year => (monthsOfYears? step).bind (r.stepMonths sign)

/-- The instant a number of calendar units later. -/
def Calendar.Instant.addUnits (r : Instant) (unit : CalendarUnit) (step : Nat) : Option Instant :=
  r.stepUnits 1 unit step

/-- The instant a number of calendar units earlier. -/
def Calendar.Instant.subUnits (r : Instant) (unit : CalendarUnit) (step : Nat) : Option Instant :=
  r.stepUnits (-1) unit step

/-- The same time on the first weekday from Monday to Friday that is not earlier, a day being added as
long as the weekend lasts. -/
def Calendar.Instant.skipWeekend (r : Instant) : Option Instant :=
  if _hweekend : r.weekday.isWeekend then
    match _hnext : r.plusDays 1 with
    | none => none
    | some next => next.skipWeekend
  else some r
termination_by r.weekday.daysToWorkday
decreasing_by
  have hnearer := Weekday.daysToWorkday_succ _hweekend
  rw [← Instant.day_of_plusDays _hnext] at hnearer
  exact Nat.le_of_eq hnearer

/-- On a weekend the loop goes on from the next day. -/
theorem Calendar.Instant.skipWeekend_of_weekend {r : Instant} (h : r.weekday.isWeekend = true) :
    r.skipWeekend = (r.plusDays 1).bind skipWeekend := by
  rw [skipWeekend, dif_pos h]
  split
  · next hnext => rw [hnext, Option.bind_none]
  · next next hnext => rw [hnext, Option.bind_some]

/-- From Monday to Friday the loop has nothing to skip. -/
theorem Calendar.Instant.skipWeekend_of_workday {r : Instant} (h : r.weekday.isWeekend = false) :
    r.skipWeekend = some r := by
  rw [skipWeekend, dif_neg (Bool.eq_false_iff.mp h)]

namespace Period

/-- The instant one period later. -/
def advance (p : Period) (r : Instant) : Option Instant :=
  match p with
  | exact seconds => r.plusSeconds seconds
  | calendar unit step skipWeekends => do
    let next ← r.addUnits unit step
    if skipWeekends then next.skipWeekend else some next

/-- The instant one period earlier; weekends are not skipped on the way back. -/
def retreat (p : Period) (r : Instant) : Option Instant :=
  match p with
  | exact seconds => r.plusSeconds (-seconds)
  | calendar unit step _ => r.subUnits unit step

/-- The instant one period later, or earlier when `forward` is false. -/
def shift (p : Period) (forward : Bool) (r : Instant) : Option Instant :=
  if forward then p.advance r else p.retreat r

end Period

end TaskSeries
