import Mathlib.Logic.Function.Iterate
import TaskSeries.Proofs.Period.Units
import TaskSeries.Series.Occurrences

/-!
# Series of months and years

A year is twelve months. A series of months is at the same time of day on the dates that adding the
months again and again gives. A month that is too short cuts the day off, and the months behind it keep
what is left: after any number of steps the day is the least of the day at the beginning and of the
lengths of all months on the way (`advanceTimes_months`).
-/

namespace TaskSeries

open TaskSeries.Calendar TaskSeries.Series

/-! ## Dates -/

namespace Calendar.Date

/-- The lengths of the months that are reached when `months` months are added `count` times. -/
def visitedLengths (d : Date) (months count : Nat) : List Nat :=
  (List.range count).map fun n => lengthAt (d.monthIndex + (months * (n + 1) : Nat))

lemma visitedLengths_succ (d : Date) (months count : Nat) :
    d.visitedLengths months (count + 1) =
      d.visitedLengths months count ++ [lengthAt (d.monthIndex + (months * (count + 1) : Nat))] := by
  unfold visitedLengths
  rw [List.range_succ, List.map_append, List.map_singleton]

/-- The months visited first stay among the visited ones. -/
lemma mem_visitedLengths_of_le {d : Date} {months count total length : Nat} (hle : count ≤ total)
    (h : length ∈ d.visitedLengths months count) : length ∈ d.visitedLengths months total := by
  obtain ⟨n, hn, hlength⟩ := List.mem_map.mp h
  rw [List.mem_range] at hn
  exact List.mem_map.mpr ⟨n, List.mem_range.mpr (Nat.lt_of_lt_of_le hn hle), hlength⟩

lemma twentyEight_le_of_mem_visitedLengths {d : Date} {months count length : Nat}
    (h : length ∈ d.visitedLengths months count) : 28 ≤ length := by
  obtain ⟨n, -, rfl⟩ := List.mem_map.mp h
  exact twentyEight_le_lengthAt _

variable {d : Date}

lemma valid_iterate_plusMonths (h : d.Valid) (months count : Nat) :
    ((fun d => d.plusMonths months)^[count] d).Valid := by
  induction count with
  | zero => exact h
  | succ count ih =>
    rw [Function.iterate_succ_apply']
    exact valid_plusMonths ih months

/-- The months that are added add up. -/
lemma monthIndex_iterate_plusMonths (d : Date) (months count : Nat) :
    ((fun d => d.plusMonths months)^[count] d).monthIndex =
      d.monthIndex + (months * count : Nat) := by
  induction count with
  | zero => exact (Int.add_zero _).symm
  | succ count ih =>
    rw [Function.iterate_succ_apply', monthIndex_plusMonths, ih, Nat.mul_succ, Int.natCast_add,
      Int.add_assoc]

/-- Each step cuts the day to the month that it reaches, and no step gives anything back. -/
lemma min?_cons_visitedLengths (d : Date) (months count : Nat) :
    (d.day :: d.visitedLengths months count).min? =
      some ((fun d => d.plusMonths months)^[count] d).day := by
  rw [List.min?_cons']
  refine congrArg some ?_
  induction count with
  | zero => rfl
  | succ count ih =>
    have hindex : (months * count : Nat) + (months : Int) = (months * (count + 1) : Nat) := by
      rw [Nat.mul_succ, Int.natCast_add]
    rw [Function.iterate_succ_apply', day_plusMonths, ← ih, monthIndex_iterate_plusMonths,
      visitedLengths_succ, List.foldl_append, Int.add_assoc, hindex]
    rfl

/-- While no month visited is too short for the day, the months can be added at once. -/
lemma iterate_plusMonths_of_le (h : d.Valid) {months count : Nat}
    (hlong : ∀ length ∈ d.visitedLengths months count, d.day ≤ length) :
    (fun d => d.plusMonths months)^[count] d = d.plusMonths (months * count : Nat) := by
  have hday : ((fun d => d.plusMonths months)^[count] d).day = d.day := by
    have hmin : (d.day :: d.visitedLengths months count).min? = some d.day :=
      List.min?_eq_some_iff.mpr ⟨List.mem_cons_self, List.forall_mem_cons.mpr ⟨Nat.le_refl _, hlong⟩⟩
    rw [min?_cons_visitedLengths] at hmin
    exact Option.some.inj hmin
  have hlast : d.day ≤ lengthAt (d.monthIndex + (months * count : Nat)) := by
    cases count with
    | zero =>
      rw [Nat.mul_zero, Int.natCast_zero, Int.add_zero, ← (dayNumber_eq h).2]
      exact h.2.2.2
    | succ count =>
      refine hlong _ ?_
      rw [visitedLengths_succ]
      exact List.mem_append_right _ List.mem_cons_self
  refine ext_of_monthIndex (valid_iterate_plusMonths h months count) (valid_plusMonths h _) ?_ ?_
  · rw [monthIndex_iterate_plusMonths, monthIndex_plusMonths]
  · rw [hday, day_plusMonths, Nat.min_eq_left hlast]

/-- However often months are added, the date does not go back. -/
lemma dayNumber_le_iterate_plusMonths (h : d.Valid) (months count : Nat) :
    d.dayNumber ≤ ((fun d => d.plusMonths months)^[count] d).dayNumber := by
  induction count with
  | zero => exact Int.le_refl _
  | succ count ih =>
    rw [Function.iterate_succ_apply']
    exact Int.le_trans ih (dayNumber_le_plusMonths (valid_iterate_plusMonths h months count) months)

end Calendar.Date

/-! ## The series -/

variable {r x : Instant} {unit : CalendarUnit} {months : Nat}

/-- The dates of a series of months are those of adding the months again and again, as long as they are
in the range. -/
lemma advanceTimes_eq_some_iff (hunit : unit.months? = some months) {step k : Nat} :
    advanceTimes (.calendar unit step false) k r = some x ↔
      Instant.SameTime r x ∧ x.date = (fun d => d.plusMonths (months * step : Nat))^[k] r.date := by
  have hadvance : (Period.calendar unit step false).advance =
      fun i => i.plusMonths (months * step : Nat) :=
    funext fun i => (Option.bind_fun_some _).trans (Instant.addUnits_eq_plusMonths hunit i step)
  induction k generalizing x with
  | zero =>
    constructor
    · intro h
      rw [← Option.some.inj h]
      exact ⟨.refl r, rfl⟩
    · rintro ⟨htime, hdate⟩
      exact congrArg some (Instant.ext_of_date hdate.symm htime)
  | succ k ih =>
    rw [advanceTimes_succ, hadvance, Option.bind_eq_some_iff, Function.iterate_succ_apply']
    constructor
    · rintro ⟨y, hy, hx⟩
      obtain ⟨hytime, hydate⟩ := ih.mp hy
      obtain ⟨hxtime, hxdate⟩ := Instant.plusMonths_eq_some_iff.mp hx
      rw [hydate] at hxdate
      exact ⟨hytime.trans hxtime, hxdate⟩
    · rintro ⟨htime, hdate⟩
      -- the date before is between the first one and `x`, and so in the range
      have hvalid := Date.valid_iterate_plusMonths r.valid_date (months * step) k
      have hfrom := Date.dayNumber_le_iterate_plusMonths r.valid_date (months * step) k
      have hto := Date.dayNumber_le_plusMonths hvalid (months * step)
      rw [Instant.dayNumber_date] at hfrom
      rw [← hdate, Instant.dayNumber_date] at hto
      obtain ⟨y, hy⟩ := Instant.exists_onDay? hfrom hto htime
      obtain ⟨hyday, hytime⟩ := Instant.onDay?_eq_some_iff.mp hy
      have hydate := (Instant.date_eq_iff hvalid).mpr hyday
      refine ⟨y, ih.mpr ⟨hytime, hydate⟩, Instant.plusMonths_eq_some_iff.mpr ⟨hytime.symm.trans htime, ?_⟩⟩
      rw [hydate, hdate]

/-- The closed form of a series of months or years. After `k` steps it is at the same time of day, in the
month that all the months of the steps lead to, on the least of the day of the month at the beginning and
of the lengths of the months visited; this also says when it is still in the range. When no visited month
is shorter, as for all days up to the 28th, the steps can be taken at once. A shorter month lowers the
day for the rest of the series. -/
theorem advanceTimes_months (hunit : unit.months? = some months) (step k : Nat) (r : Instant) :
    (∀ x, advanceTimes (.calendar unit step false) k r = some x ↔
      Instant.SameTime r x ∧
        x.date.monthIndex = r.date.monthIndex + (months * (k * step) : Nat) ∧
        (r.date.day :: r.date.visitedLengths (months * step) k).min? = some x.date.day) ∧
    ((r.date.day ≤ 28 ∨ ∀ length ∈ r.date.visitedLengths (months * step) k, r.date.day ≤ length) →
      advanceTimes (.calendar unit step false) k r = r.addUnits unit (k * step)) ∧
    ((∃ length ∈ r.date.visitedLengths (months * step) k, length < r.date.day) →
      ∀ n x, k ≤ n → advanceTimes (.calendar unit step false) n r = some x →
        x.date.day < r.date.day) := by
  have hvalid := Date.valid_iterate_plusMonths r.valid_date (months * step) k
  have hindex := Date.monthIndex_iterate_plusMonths r.date (months * step) k
  have hatOnce : months * step * k = months * (k * step) := by
    rw [Nat.mul_assoc, Nat.mul_comm step k]
  rw [hatOnce] at hindex
  refine ⟨fun x => ?_, fun hlong => ?_, fun hshort n x hn hx => ?_⟩
  · rw [advanceTimes_eq_some_iff hunit, Date.min?_cons_visitedLengths, ← hindex, Option.some_inj]
    refine and_congr_right fun _ => ⟨fun hdate => ?_, fun ⟨hmonth, hday⟩ => ?_⟩
    · rw [hdate]
      exact ⟨rfl, rfl⟩
    · exact Date.ext_of_monthIndex x.valid_date hvalid hmonth hday.symm
  · have hkeeps : ∀ length ∈ r.date.visitedLengths (months * step) k, r.date.day ≤ length := by
      intro length hlength
      rcases hlong with hday | hlong
      · exact Nat.le_trans hday (Date.twentyEight_le_of_mem_visitedLengths hlength)
      · exact hlong length hlength
    ext x
    rw [advanceTimes_eq_some_iff hunit, Date.iterate_plusMonths_of_le r.valid_date hkeeps, hatOnce,
      Instant.addUnits_eq_plusMonths hunit, Instant.plusMonths_eq_some_iff]
  · obtain ⟨-, hdate⟩ := (advanceTimes_eq_some_iff hunit).mp hx
    obtain ⟨length, hlength, hless⟩ := hshort
    have hmin := Date.min?_cons_visitedLengths r.date (months * step) n
    rw [← hdate] at hmin
    have hle := (List.min?_eq_some_iff.mp hmin).2 length
      (List.mem_cons_of_mem _ (Date.mem_visitedLengths_of_le hn hlength))
    omega

/-- From the end of January two months lead to the 28th of March and no later month brings the 31st back;
from there on months can be added at once. -/
theorem advanceTimes_months_endOfJanuary :
    let january : Instant := ⟨2592000, 0, by decide⟩
    let march : Instant := ⟨7430400, 0, by decide⟩
    CalendarUnit.month.months? = some 1 ∧ january.date = ⟨1970, 1, 31⟩ ∧ march.date = ⟨1970, 3, 28⟩ ∧
      advanceTimes (.calendar .month 1 false) 2 january = some march ∧
      (∀ n x, 2 ≤ n → advanceTimes (.calendar .month 1 false) n january = some x →
        x.date.day < 31) ∧
      advanceTimes (.calendar .month 1 false) 2 march = march.addUnits .month 2 := by
  intro january march
  obtain ⟨hseries, -, hlowered⟩ := advanceTimes_months (show CalendarUnit.month.months? = some 1 from rfl)
    1 2 january
  obtain ⟨-, hatOnce, -⟩ := advanceTimes_months (show CalendarUnit.month.months? = some 1 from rfl)
    1 2 march
  exact ⟨rfl, by decide, by decide, (hseries march).mpr ⟨⟨rfl, rfl⟩, by decide, by decide⟩,
    hlowered ⟨28, by decide, by decide⟩, hatOnce (.inl (by decide))⟩

end TaskSeries
