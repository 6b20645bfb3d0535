import Mathlib.Logic.ExistsUnique
import TaskSeries.Proofs.Period.Weekends
import TaskSeries.Series.Occurrences

/-!
# Series that leave out weekends

A calendar period that skips weekends leads to the first workday at or behind the date that it would
lead to otherwise. From one workday to the next there are three days on a Friday and one on the other
days, so that a series of weekdays has all the workdays to the end of the range, each of them once and
in order (`workdays_visited`).
-/

namespace TaskSeries

open TaskSeries.Calendar TaskSeries.Series

namespace Calendar.Weekday

/-- The days from a weekday to the next workday behind it. -/
def daysOn : Weekday → Nat
  | friday => 3
  | saturday => 2
  | _ => 1

lemma daysOn_ofDayNumber (day : Int) :
    (ofDayNumber day).daysOn = 1 + (ofDayNumber (day + 1)).daysToWorkday := by
  rw [daysToWorkday_ofDayNumber]
  rcases ofDayNumber_cases day with ⟨h, hday⟩ | ⟨h, hday⟩ | ⟨h, hday⟩ | ⟨h, hday⟩ | ⟨h, hday⟩ |
    ⟨h, hday⟩ | ⟨h, hday⟩
  all_goals
    rw [hday]
    dsimp only [daysOn]
    split_ifs <;> omega

lemma one_le_daysOn (w : Weekday) : 1 ≤ w.daysOn := by
  cases w <;> decide

/-- The days from one workday to the next are days of a weekend. -/
lemma daysOn_le_of_workday {day later : Int} (hlater : day < later)
    (hworkday : (ofDayNumber later).isWeekend = false) : day + (ofDayNumber day).daysOn ≤ later := by
  rw [← Bool.not_eq_true, isWeekend_iff] at hworkday
  rw [daysOn_ofDayNumber, daysToWorkday_ofDayNumber]
  split_ifs <;> omega

/-- A weekdays period never ends on a weekend. -/
lemma isWeekend_daysOn (day : Int) :
    (ofDayNumber (day + (ofDayNumber day).daysOn)).isWeekend = false := by
  have hspec := (daysToWorkday_spec (day + 1)).2.1
  rw [daysOn_ofDayNumber, Int.natCast_add, ← Int.add_assoc]
  exact hspec

end Calendar.Weekday

variable {r x y : Instant}

/-! ## One step -/

/-- A period that skips weekends adds its units, and then the days to the next workday. -/
lemma Period.advance_skipping {unit : CalendarUnit} {step : Nat} :
    (Period.calendar unit step true).advance r = some x ↔
      ∃ next, r.addUnits unit step = some next ∧
        next.plusDays next.weekday.daysToWorkday = some x := by
  show (r.addUnits unit step).bind Instant.skipWeekend = some x ↔ _
  rw [Option.bind_eq_some_iff]
  simp only [Instant.skipWeekend_eq]

/-- The weekdays period adds one day, or the days up to Monday. -/
lemma Period.advance_weekdays (r : Instant) :
    Period.weekdays.advance r = r.plusDays r.weekday.daysOn := by
  show (r.plusDays 1).bind Instant.skipWeekend = _
  have hdays : r.weekday.daysOn = 1 + (Weekday.ofDayNumber (r.day + 1)).daysToWorkday :=
    Weekday.daysOn_ofDayNumber r.day
  rw [hdays, ← Instant.plusDays_plusDays]
  refine Option.bind_congr fun next hnext => ?_
  rw [Instant.skipWeekend_eq, ← Instant.day_of_plusDays hnext]
  rfl

/-- It leads to the same time on that day, if this is no later than the last regular instant. -/
lemma Period.advance_weekdays_eq_some_iff :
    Period.weekdays.advance r = some x ↔
      x.day = r.day + r.weekday.daysOn ∧ Instant.SameTime r x ∧ x ≤ Instant.lastRegular := by
  have hpos := Weekday.one_le_daysOn r.weekday
  rw [Period.advance_weekdays, Instant.plusDays_eq_some_iff (by omega)]

/-! ## A series of weekdays -/

/-- A step leads to a later workday at the same time. -/
lemma Period.later_of_advance_weekdays (h : Period.weekdays.advance r = some x) :
    r.day < x.day ∧ x.weekday.isWeekend = false ∧ Instant.SameTime r x := by
  obtain ⟨hday, htime, -⟩ := Period.advance_weekdays_eq_some_iff.mp h
  have hpos := Weekday.one_le_daysOn r.weekday
  refine ⟨by omega, ?_, htime⟩
  unfold Instant.weekday at hday ⊢
  rw [hday]
  exact Weekday.isWeekend_daysOn r.day

/-- The dates of a series of weekdays are later workdays at the same time. -/
lemma later_of_advanceTimes_weekdays {n : Nat}
    (h : advanceTimes Period.weekdays (n + 1) r = some x) :
    r.day < x.day ∧ x.weekday.isWeekend = false ∧ Instant.SameTime r x := by
  induction n generalizing x with
  | zero =>
    rw [advanceTimes_succ] at h
    exact Period.later_of_advance_weekdays h
  | succ n ih =>
    rw [advanceTimes_succ] at h
    obtain ⟨before, hbefore, h⟩ := Option.bind_eq_some_iff.mp h
    obtain ⟨hday, -, htime⟩ := ih hbefore
    obtain ⟨hday', hworkday, htime'⟩ := Period.later_of_advance_weekdays h
    exact ⟨by omega, hworkday, htime.trans htime'⟩

/-- A later place in a series of weekdays is a later day. -/
lemma day_lt_of_advanceTimes_weekdays {i k : Nat} (hik : i < k)
    (hx : advanceTimes Period.weekdays i r = some x)
    (hy : advanceTimes Period.weekdays k r = some y) : x.day < y.day := by
  obtain ⟨n, rfl⟩ := Nat.exists_eq_add_of_lt hik
  rw [Nat.add_assoc, advanceTimes_add, hx, Option.bind_some] at hy
  exact (later_of_advanceTimes_weekdays hy).1

/-- A later workday in the range is not before the next workday, which is in the range then. -/
lemma Period.exists_advance_weekdays (hday : r.day < y.day) (hworkday : y.weekday.isWeekend = false)
    (htime : Instant.SameTime r y) (hregular : y ≤ Instant.lastRegular) :
    ∃ x, Period.weekdays.advance r = some x ∧ x.day ≤ y.day := by
  have hle := Weekday.daysOn_le_of_workday hday hworkday
  obtain ⟨x, hx⟩ := Instant.exists_onDay? (Int.le_add_of_nonneg_right (Int.natCast_nonneg _)) hle htime
  obtain ⟨hxday, hxtime⟩ := Instant.onDay?_eq_some_iff.mp hx
  have hxy : x.day ≤ y.day := by omega
  have hxregular : x ≤ Instant.lastRegular := by
    intro hlast
    have hbefore : ¬ y < x := fun hlt =>
      absurd ((htime.symm.trans hxtime).lt_iff.mp hlt) (by omega)
    exact hregular (Instant.lt_of_lt_of_le hlast hbefore)
  exact ⟨x, Period.advance_weekdays_eq_some_iff.mpr ⟨hxday, hxtime, hxregular⟩, hxy⟩

/-- Every later workday in the range is reached by a number of steps. -/
lemma exists_advanceTimes_weekdays (hday : r.day < y.day) (hworkday : y.weekday.isWeekend = false)
    (htime : Instant.SameTime r y) (hregular : y ≤ Instant.lastRegular) :
    ∃ n, advanceTimes Period.weekdays (n + 1) r = some y := by
  -- the induction is on the days in between, each step taking one of them at least
  induction hdays : (y.day - r.day).toNat using Nat.strongRecOn generalizing r with
  | ind days ih =>
    obtain ⟨x, hx, hxy⟩ := Period.exists_advance_weekdays hday hworkday htime hregular
    obtain ⟨hlater, -, hxtime⟩ := Period.later_of_advance_weekdays hx
    have hxytime := hxtime.symm.trans htime
    by_cases hreached : x.day = y.day
    · refine ⟨0, ?_⟩
      rw [advanceTimes_succ, ← Instant.ext_of_day hreached hxytime]
      exact hx
    · have hnear : (y.day - x.day).toNat < days := by omega
      obtain ⟨n, hn⟩ := ih _ hnear (by omega) hxytime rfl
      refine ⟨n + 1, ?_⟩
      rw [advanceTimes, hx, Option.bind_some]
      exact hn

/-- Skipping weekends, in all that there is to it. The loop ends after two days at most, on the first day
from Monday to Friday. So a calendar period that skips weekends gives the first workday at or behind the
date that its units lead to, at the same time of day. The period of weekdays leads on by three days on a
Friday, by two on a Saturday and by one on all other days. And from any day on, its series is one of later
and later workdays, among them every workday up to the end of the range exactly once. -/
theorem workdays_visited :
    (∀ next : Instant, ∃ j : Nat, j ≤ 2 ∧ next.skipWeekend = next.plusDays j ∧
      (Weekday.ofDayNumber (next.day + j)).isWeekend = false ∧
      ∀ i < j, (Weekday.ofDayNumber (next.day + i)).isWeekend = true) ∧
    (∀ (r x : Instant) (unit : CalendarUnit) (step : Nat),
      (Period.calendar unit step true).advance r = some x →
      ∃ next, r.addUnits unit step = some next ∧ ∃ j : Nat, j ≤ 2 ∧ next.plusDays j = some x ∧
        Instant.SameTime next x ∧ x.weekday.isWeekend = false ∧
        ∀ i < j, (Weekday.ofDayNumber (next.day + i)).isWeekend = true) ∧
    (∀ r x : Instant, Period.weekdays.advance r = some x →
      x.day = r.day + r.weekday.daysOn ∧ Instant.SameTime r x) ∧
    ∀ r : Instant,
      (∀ i k x y, i < k → advanceTimes Period.weekdays i r = some x →
        advanceTimes Period.weekdays k r = some y →
        x.day < y.day ∧ y.weekday.isWeekend = false ∧ Instant.SameTime r y) ∧
      ∀ y : Instant, y.weekday.isWeekend = false → Instant.SameTime r y → r.day < y.day →
        y ≤ Instant.lastRegular → ∃! k, advanceTimes Period.weekdays k r = some y := by
  refine ⟨fun next => ?_, fun r x unit step h => ?_, fun r x h => ?_, fun r => ⟨?_, ?_⟩⟩
  · obtain ⟨hle, hworkday, hweekend⟩ := Weekday.daysToWorkday_spec next.day
    exact ⟨_, hle, Instant.skipWeekend_eq next, hworkday, hweekend⟩
  · obtain ⟨next, hnext, hx⟩ := Period.advance_skipping.mp h
    obtain ⟨hle, hworkday, hweekend⟩ := Weekday.daysToWorkday_spec next.day
    refine ⟨next, hnext, _, hle, hx, Instant.sameTime_plusDays hx, ?_, hweekend⟩
    unfold Instant.weekday
    rw [Instant.day_of_plusDays hx]
    exact hworkday
  · obtain ⟨hday, htime, -⟩ := Period.advance_weekdays_eq_some_iff.mp h
    exact ⟨hday, htime⟩
  · intro i k x y hik hx hy
    obtain ⟨n, rfl⟩ := Nat.exists_eq_add_of_lt hik
    exact ⟨day_lt_of_advanceTimes_weekdays hik hx hy, (later_of_advanceTimes_weekdays hy).2⟩
  · intro y hworkday htime hday hregular
    obtain ⟨n, hn⟩ := exists_advanceTimes_weekdays hday hworkday htime hregular
    refine ⟨n + 1, hn, fun k hk => ?_⟩
    rcases Nat.lt_trichotomy k (n + 1) with hlt | heq | hlt
    · exact absurd (day_lt_of_advanceTimes_weekdays hlt hk hn) (Int.lt_irrefl _)
    · exact heq
    · exact absurd (day_lt_of_advanceTimes_weekdays hlt hn hk) (Int.lt_irrefl _)

/-- From a Friday evening the period of weekdays leads over the weekend to the Monday, and the Thursday
behind it comes once in the series. -/
theorem workdays_visited_fridayEvening :
    let friday : Instant := ⟨158400, 0, by decide⟩
    let monday : Instant := ⟨417600, 0, by decide⟩
    let thursday : Instant := ⟨676800, 0, by decide⟩
    friday.weekday = .friday ∧ thursday.weekday = .thursday ∧ friday.day < thursday.day ∧
      Instant.SameTime friday thursday ∧ thursday ≤ Instant.lastRegular ∧
      Period.weekdays.advance friday = some monday ∧
      monday.day = friday.day + friday.weekday.daysOn ∧
      ∃! k, advanceTimes Period.weekdays k friday = some thursday := by
  intro friday monday thursday
  have hmonday : Period.weekdays.advance friday = some monday :=
    Period.advance_weekdays_eq_some_iff.mpr ⟨by decide, ⟨by decide, by decide⟩, by decide⟩
  obtain ⟨-, -, hstep, hseries⟩ := workdays_visited
  exact ⟨by decide, by decide, by decide, ⟨by decide, by decide⟩, by decide, hmonday,
    (hstep friday monday hmonday).1,
    (hseries friday).2 thursday (by decide) ⟨by decide, by decide⟩ (by decide) (by decide)⟩

end TaskSeries
