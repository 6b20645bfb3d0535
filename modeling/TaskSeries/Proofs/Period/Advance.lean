import TaskSeries.Proofs.Period.Units
import TaskSeries.Proofs.Period.Weekends

/-!
# Periods keep whole milliseconds

A period moves an instant by whole seconds, or to the same time on another day. What is below the
second stays, unless the instant is in a leap second.
-/

namespace TaskSeries

open TaskSeries.Calendar

namespace Calendar.Instant

variable {i j : Instant}

/-- Calendar units keep the time of day. -/
lemma sameTime_addUnits {unit : CalendarUnit} {step : Nat} (h : i.addUnits unit step = some j) :
    SameTime i j := by
  rcases unit.days_or_months with ⟨days, hdays, -, -⟩ | ⟨months, hmonths, -⟩
  · rw [addUnits_eq_plusDays hdays] at h
    exact sameTime_plusDays h
  · rw [addUnits_eq_plusMonths hmonths] at h
    exact (plusMonths_eq_some_iff.mp h).1

/-- Skipping a weekend keeps the time of day. -/
lemma sameTime_skipWeekend (h : i.skipWeekend = some j) : SameTime i j := by
  rw [skipWeekend_eq] at h
  exact sameTime_plusDays h

/-- Adding seconds outside of leap seconds keeps the fraction of the second. -/
lemma plusSeconds_nano {count : Int} (hregular : i.nano < 1000000000)
    (h : i.plusSeconds count = some j) : j.nano = i.nano := by
  unfold plusSeconds at h
  split at h
  · exact absurd h nofun
  · rw [if_pos (Or.inl hregular)] at h
    exact (of?_eq_some_iff.mp h).2

end Calendar.Instant

/-- A period moves instants in whole milliseconds to such instants. -/
lemma Period.isWhole_advance {p : Period} {i j : Instant} (hi : i.IsWhole)
    (h : p.advance i = some j) : j.IsWhole := by
  have hnano : j.nano = i.nano := by
    unfold advance at h
    cases p with
    | exact seconds => exact Instant.plusSeconds_nano hi.1 h
    | calendar unit step skipWeekends =>
      obtain ⟨next, hnext, hj⟩ := Option.bind_eq_some_iff.mp h
      have hsame := Instant.sameTime_addUnits hnext
      cases skipWeekends with
      | false =>
        rw [← Option.some.inj hj]
        exact hsame.2.symm
      | true => exact (hsame.trans (Instant.sameTime_skipWeekend hj)).2.symm
  unfold Instant.IsWhole
  rw [hnano]
  exact hi

end TaskSeries
