import Mathlib.Tactic.SplitIfs
import TaskSeries.Period.Advance
import TaskSeries.Proofs.Calendar.Days

/-!
# Skipping weekends

The loop that skips a weekend ends after two days at most, on the first day from Monday to Friday
(`Instant.skipWeekend_eq`).
-/

namespace TaskSeries.Calendar

namespace Weekday

/-- The weekdays go round in seven days. -/
lemma ofDayNumber_cases (day : Int) :
    (day + 3) % 7 = 0 ∧ ofDayNumber day = monday ∨ (day + 3) % 7 = 1 ∧ ofDayNumber day = tuesday ∨
      (day + 3) % 7 = 2 ∧ ofDayNumber day = wednesday ∨ (day + 3) % 7 = 3 ∧ ofDayNumber day = thursday ∨
      (day + 3) % 7 = 4 ∧ ofDayNumber day = friday ∨ (day + 3) % 7 = 5 ∧ ofDayNumber day = saturday ∨
      (day + 3) % 7 = 6 ∧ ofDayNumber day = sunday := by
  have hcases : (day + 3) % 7 = 0 ∨ (day + 3) % 7 = 1 ∨ (day + 3) % 7 = 2 ∨ (day + 3) % 7 = 3 ∨
      (day + 3) % 7 = 4 ∨ (day + 3) % 7 = 5 ∨ (day + 3) % 7 = 6 := by omega
  unfold ofDayNumber
  rcases hcases with h | h | h | h | h | h | h <;> rw [h] <;> decide

/-- Two days of the seven are the weekend. -/
lemma isWeekend_iff (day : Int) :
    (ofDayNumber day).isWeekend = true ↔ (day + 3) % 7 = 5 ∨ (day + 3) % 7 = 6 := by
  rcases ofDayNumber_cases day with h | h | h | h | h | h | h <;> rw [h.1, h.2] <;> decide

lemma daysToWorkday_eq_zero_iff (w : Weekday) : w.daysToWorkday = 0 ↔ w.isWeekend = false := by
  cases w <;> decide

/-- The days to the next workday: two on a Saturday and one on a Sunday. -/
lemma daysToWorkday_ofDayNumber (day : Int) :
    (ofDayNumber day).daysToWorkday =
      if (day + 3) % 7 = 5 then 2 else if (day + 3) % 7 = 6 then 1 else 0 := by
  rcases ofDayNumber_cases day with h | h | h | h | h | h | h <;> rw [h.1, h.2] <;> rfl

/-- The days to the next workday lead over the rest of the weekend to a workday. -/
lemma daysToWorkday_spec (day : Int) :
    (ofDayNumber day).daysToWorkday ≤ 2 ∧
      (ofDayNumber (day + (ofDayNumber day).daysToWorkday)).isWeekend = false ∧
      ∀ i < (ofDayNumber day).daysToWorkday, (ofDayNumber (day + i)).isWeekend = true := by
  rw [← Bool.not_eq_true, isWeekend_iff, daysToWorkday_ofDayNumber]
  simp only [isWeekend_iff]
  split_ifs
  all_goals exact ⟨by omega, by omega, fun i hi => by omega⟩

end Weekday

namespace Instant

/-- The loop over a weekend adds the days to the next workday. -/
lemma skipWeekend_eq (i : Instant) : i.skipWeekend = i.plusDays i.weekday.daysToWorkday := by
  have hweekend : ∀ i : Instant, i.weekday.isWeekend = true → i.plusDays i.weekday.daysToWorkday =
      (i.plusDays 1).bind fun next => next.plusDays (Weekday.ofDayNumber (i.day + 1)).daysToWorkday := by
    intro i hi
    have hparts := plusDays_plusDays i 1 (Weekday.ofDayNumber (i.day + 1)).daysToWorkday
    rw [Nat.add_comm, Weekday.daysToWorkday_succ hi] at hparts
    exact hparts.symm
  induction i using skipWeekend.induct with
  | case1 i hi hnext =>
    rw [skipWeekend_of_weekend hi, hweekend i hi, hnext]
    rfl
  | case2 i hi next hnext ih =>
    rw [skipWeekend_of_weekend hi, hweekend i hi, hnext, Option.bind_some, Option.bind_some, ih,
      ← day_of_plusDays hnext]
    rfl
  | case3 i hi =>
    have hworkday : i.weekday.isWeekend = false := Bool.eq_false_iff.mpr hi
    rw [skipWeekend_of_workday hworkday, (Weekday.daysToWorkday_eq_zero_iff _).mpr hworkday]
    rfl

end Instant

end TaskSeries.Calendar
