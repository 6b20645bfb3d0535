import TaskSeries.Period.Advance
import TaskSeries.Proofs.Calendar.Date
import TaskSeries.Proofs.Calendar.Days

/-!
# Calendar units as days and months

A step of days or weeks is a number of days, and a step of months or years is a number of months, both
ways (`Instant.stepUnits_eq_plusDays`, `Instant.stepUnits_eq_plusMonths`). The limits on how many months
can be handed on at once get in the way of no date: the whole range has fewer months.
-/

namespace TaskSeries

open TaskSeries.Calendar

namespace CalendarUnit

/-- The number of months in a unit that is counted in months. -/
def months? : CalendarUnit → Option Nat
  | .month => some 1
  | .year => some 12
  | _ => none

/-- The number of days in a unit that is counted in days. -/
def days? : CalendarUnit → Option Nat
  | .day => some 1
  | .week => some 7
  | _ => none

/-- Every unit is counted in days or in months. -/
lemma days_or_months (unit : CalendarUnit) :
    (∃ days, unit.days? = some days ∧ 0 < days ∧ unit.months? = none) ∨
      ∃ months, unit.months? = some months ∧ 0 < months := by
  cases unit with
  | day => exact .inl ⟨1, rfl, by decide, rfl⟩
  | week => exact .inl ⟨7, rfl, by decide, rfl⟩
  | month => exact .inr ⟨1, rfl, by decide⟩
  | year => exact .inr ⟨12, rfl, by decide⟩

end CalendarUnit

namespace Calendar.Instant

variable {i j : Instant} {unit : CalendarUnit} {sign : Int}

/-! ## Days and weeks -/

/-- Units that are counted in days are added as days. -/
lemma stepUnits_eq_plusDays {days : Nat} (hunit : unit.days? = some days) (i : Instant) (sign : Int)
    (step : Nat) : i.stepUnits sign unit step = i.plusDays (sign * (days * step : Nat)) := by
  unfold stepUnits
  cases unit with
  | day =>
    obtain rfl : 1 = days := Option.some.inj hunit
    rw [Nat.one_mul]
  | week =>
    obtain rfl : 7 = days := Option.some.inj hunit
    rfl
  | month => exact absurd hunit nofun
  | year => exact absurd hunit nofun

lemma addUnits_eq_plusDays {days : Nat} (hunit : unit.days? = some days) (i : Instant) (step : Nat) :
    i.addUnits unit step = i.plusDays (days * step : Nat) := by
  unfold addUnits
  rw [stepUnits_eq_plusDays hunit, Int.one_mul]

lemma subUnits_eq_plusDays {days : Nat} (hunit : unit.days? = some days) (i : Instant) (step : Nat) :
    i.subUnits unit step = i.plusDays (-(days * step : Nat)) := by
  unfold subUnits
  rw [stepUnits_eq_plusDays hunit, Int.neg_one_mul]

/-! ## Months and years -/

/-- Adding months changes the date and keeps the time of day. -/
lemma plusMonths_eq_some_iff {count : Int} :
    i.plusMonths count = some j ↔ SameTime i j ∧ j.date = i.date.plusMonths count := by
  unfold plusMonths
  rw [onDay?_eq_some_iff, date_eq_iff (Date.valid_plusMonths i.valid_date count), and_comm]

/-- The whole range has fewer months than can be added at once. -/
lemma natAbs_le_mostMonths {count : Int} (h : i.plusMonths count = some j) :
    count.natAbs ≤ mostMonths := by
  obtain ⟨-, hdate⟩ := plusMonths_eq_some_iff.mp h
  obtain ⟨hfirst, hlast, -⟩ := i.representable
  obtain ⟨hfirst', hlast', -⟩ := j.representable
  have hdays : 28 * (count.natAbs : Int) ≤ (j.day - i.day).natAbs + 30 := by
    rw [← dayNumber_date j, ← dayNumber_date i, hdate]
    obtain ⟨n, rfl | rfl⟩ := Int.eq_nat_or_neg count
    · have hlater := Date.dayNumber_add_le_plusMonths i.valid_date n
      omega
    · have hearlier := Date.plusMonths_neg_add_le_dayNumber i.valid_date n
      omega
  unfold Instant.day firstSecond lastSecond at *
  unfold mostMonths
  omega

/-- Neither the limit on steps nor that on the number of months turns down what is in range. -/
lemma stepMonths_eq_plusMonths (hsign : sign = 1 ∨ sign = -1) (i : Instant) (months : Nat) :
    i.stepMonths sign months = i.plusMonths (sign * months) := by
  unfold stepMonths
  split_ifs with hmost
  · rfl
  · refine (Option.eq_none_iff_forall_ne_some.mpr fun j hj => hmost ?_).symm
    have hle := natAbs_le_mostMonths hj
    rcases hsign with rfl | rfl <;> omega

/-- Months and years are added as months. Where their number is too large to be handed on, the range
would be left anyway. -/
lemma stepUnits_eq_plusMonths {months : Nat} (hunit : unit.months? = some months)
    (hsign : sign = 1 ∨ sign = -1) (i : Instant) (step : Nat) :
    i.stepUnits sign unit step = i.plusMonths (sign * (months * step : Nat)) := by
  unfold stepUnits
  cases unit with
  | day => exact absurd hunit nofun
  | week => exact absurd hunit nofun
  | month =>
    obtain rfl : 1 = months := Option.some.inj hunit
    rw [Nat.one_mul]
    exact stepMonths_eq_plusMonths hsign i step
  | year =>
    obtain rfl : 12 = months := Option.some.inj hunit
    show (monthsOfYears? step).bind (i.stepMonths sign) = _
    unfold monthsOfYears?
    split_ifs with hfits
    · exact stepMonths_eq_plusMonths hsign i (12 * step)
    · refine (Option.eq_none_iff_forall_ne_some.mpr fun j hj => hfits ⟨by omega, ?_⟩).symm
      have hmost := natAbs_le_mostMonths hj
      have hlimit : mostMonths < Text.twoTo 32 := by decide
      rcases hsign with rfl | rfl <;> omega

/-- Units that are counted in months are added as months. -/
lemma addUnits_eq_plusMonths {months : Nat} (hunit : unit.months? = some months) (i : Instant)
    (step : Nat) : i.addUnits unit step = i.plusMonths (months * step : Nat) := by
  unfold addUnits
  rw [stepUnits_eq_plusMonths hunit (.inl rfl), Int.one_mul]

lemma subUnits_eq_plusMonths {months : Nat} (hunit : unit.months? = some months) (i : Instant)
    (step : Nat) : i.subUnits unit step = i.plusMonths (-(months * step : Nat)) := by
  unfold subUnits
  rw [stepUnits_eq_plusMonths hunit (.inr rfl), Int.neg_one_mul]

end Calendar.Instant

end TaskSeries
