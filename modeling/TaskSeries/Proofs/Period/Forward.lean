import TaskSeries.Period.Parser
import TaskSeries.Proofs.Period.Units
import TaskSeries.Proofs.Period.Weekends

/-!
# Periods move on

A period whose step or length is positive takes every instant to a later one (`Period.lt_advance`): a
later day at the same time, over short months, leap days and weekends, or seconds later, also out of a
leap second. Backwards it takes every instant to an earlier one (`Period.retreat_lt`). All periods that
can be typed are of this kind (`Period.isForward_of_parse`).
-/

namespace TaskSeries

open TaskSeries.Calendar

namespace Calendar.Instant

variable {i j : Instant}

/-- The same time on a later day is later. -/
lemma lt_of_onDay? {day : Int} (h : i.onDay? day = some j) (hday : i.day < day) : i < j := by
  obtain ⟨hj, htime⟩ := onDay?_eq_some_iff.mp h
  rw [htime.lt_iff, hj]
  exact hday

lemma lt_plusDays {count : Int} (h : i.plusDays count = some j) (hcount : 0 < count) : i < j := by
  unfold plusDays at h
  rw [if_neg (Int.ne_of_gt hcount)] at h
  refine lt_of_onDay? (Option.filter_eq_some_iff.mp h).1 ?_
  omega

/-- Skipping a weekend does not go back. -/
lemma le_skipWeekend (h : i.skipWeekend = some j) : i ≤ j := by
  rw [skipWeekend_eq] at h
  by_cases hzero : i.weekday.daysToWorkday = 0
  · rw [hzero] at h
    rw [← Option.some.inj h]
    exact lt_irrefl i
  · intro hback
    exact lt_irrefl i (lt_trans (lt_plusDays h (by omega)) hback)

lemma lt_plusMonths {count : Nat} (h : i.plusMonths count = some j) (hcount : 0 < count) : i < j := by
  refine lt_of_onDay? h ?_
  rw [← dayNumber_date i]
  exact Date.dayNumber_lt_plusMonths i.valid_date hcount

/-- Units that are added lead forward. -/
lemma lt_addUnits {unit : CalendarUnit} {step : Nat} (h : i.addUnits unit step = some j)
    (hstep : 0 < step) : i < j := by
  rcases unit.days_or_months with ⟨days, hdays, hpos, -⟩ | ⟨months, hmonths, hpos⟩
  · rw [addUnits_eq_plusDays hdays] at h
    exact lt_plusDays h (Int.natCast_pos.mpr (Nat.mul_pos hpos hstep))
  · rw [addUnits_eq_plusMonths hmonths] at h
    exact lt_plusMonths h (Nat.mul_pos hpos hstep)

/-- On the way forward the seconds add up, whether or not it begins in a leap second. -/
lemma second_of_plusSeconds {count : Int} (h : i.plusSeconds count = some j) (hcount : 0 < count) :
    j.second = i.second + count := by
  unfold plusSeconds at h
  split_ifs at h
  · exact (of?_eq_some_iff.mp h).1
  · exact (of?_eq_some_iff.mp h).1

/-- Seconds later is later. -/
lemma lt_plusSeconds {count : Int} (h : i.plusSeconds count = some j) (hcount : 0 < count) :
    i < j := by
  have hlater := second_of_plusSeconds h hcount
  left
  omega

/-! ## The way back -/

/-- The same time on an earlier day is earlier. -/
lemma onDay?_lt {day : Int} (h : i.onDay? day = some j) (hday : day < i.day) : j < i := by
  obtain ⟨hj, htime⟩ := onDay?_eq_some_iff.mp h
  rw [htime.symm.lt_iff, hj]
  exact hday

lemma plusDays_lt {count : Int} (h : i.plusDays count = some j) (hcount : count < 0) : j < i := by
  unfold plusDays at h
  rw [if_neg (Int.ne_of_lt hcount)] at h
  refine onDay?_lt (Option.filter_eq_some_iff.mp h).1 ?_
  omega

lemma plusMonths_lt {count : Nat} (h : i.plusMonths (-count) = some j) (hcount : 0 < count) :
    j < i := by
  refine onDay?_lt h ?_
  rw [← dayNumber_date i]
  exact Date.plusMonths_neg_lt_dayNumber i.valid_date hcount

/-- Units that are taken away lead back. -/
lemma subUnits_lt {unit : CalendarUnit} {step : Nat} (h : i.subUnits unit step = some j)
    (hstep : 0 < step) : j < i := by
  rcases unit.days_or_months with ⟨days, hdays, hpos, -⟩ | ⟨months, hmonths, hpos⟩
  · rw [subUnits_eq_plusDays hdays] at h
    have hcount := Nat.mul_pos hpos hstep
    exact plusDays_lt h (by omega)
  · rw [subUnits_eq_plusMonths hmonths] at h
    exact plusMonths_lt h (Nat.mul_pos hpos hstep)

/-- Seconds earlier is earlier. Out of a leap second the way back begins at its end, but the
nanoseconds lose the leap second itself. -/
lemma plusSeconds_lt {count : Int} (h : i.plusSeconds count = some j) (hcount : count < 0) :
    j < i := by
  show j.second < i.second ∨ j.second = i.second ∧ j.nano < i.nano
  unfold plusSeconds at h
  split_ifs at h
  all_goals
    obtain ⟨hsecond, hnano⟩ := of?_eq_some_iff.mp h
    omega

end Calendar.Instant

namespace Period

/-- The period has a positive step, or a positive length. -/
def IsForward : Period → Prop
  | calendar _ step _ => 0 < step
  | exact seconds => 0 < seconds

instance : (p : Period) → Decidable p.IsForward
  | calendar _ step _ => inferInstanceAs (Decidable (0 < step))
  | exact seconds => inferInstanceAs (Decidable (0 < seconds))

/-- A period with a positive step or length leads to a later instant. -/
lemma lt_advance {p : Period} {i j : Instant} (hp : p.IsForward) (h : p.advance i = some j) :
    i < j := by
  cases p with
  | exact seconds => exact Instant.lt_plusSeconds h hp
  | calendar unit step skipWeekends =>
    obtain ⟨next, hnext, hj⟩ := Option.bind_eq_some_iff.mp h
    have hlater := Instant.lt_addUnits hnext hp
    cases skipWeekends with
    | false =>
      rw [← Option.some.inj hj]
      exact hlater
    | true => exact Instant.lt_of_lt_of_le hlater (Instant.le_skipWeekend hj)

/-- A period with a positive step or length leads back to an earlier instant. -/
lemma retreat_lt {p : Period} {i j : Instant} (hp : p.IsForward) (h : p.retreat i = some j) :
    j < i := by
  cases p with
  | exact seconds =>
    have hpositive : 0 < seconds := hp
    exact Instant.plusSeconds_lt h (by omega)
  | calendar unit step skipWeekends => exact Instant.subUnits_lt h hp

/-- Every period with a name moves on. -/
lemma isForward_of_ofName? {name : String} {p : Period} (h : ofName? name = some p) :
    p.IsForward := by
  unfold ofName? at h
  split at h
  all_goals cases h
  all_goals decide

/-- Every period that can be read moves on. -/
lemma isForward_of_parse {token : String} {p : Period} (h : parse token = .ok p) : p.IsForward := by
  unfold parse parseTrimmed at h
  dsimp only at h
  split at h
  · rename_i named hname
    rw [← Except.ok.inj h]
    exact isForward_of_ofName? hname
  · split_ifs at h
    split at h
    · exact absurd h nofun
    · exact absurd h nofun
    · rename_i seconds hzero hseconds
      rw [← Except.ok.inj h]
      show (0 : Int) < seconds
      have hpositive : seconds ≠ 0 := hzero
      omega

end Period

end TaskSeries
