import TaskSeries.Proofs.Calendar.Moment
import TaskSeries.Proofs.Period.Units
import TaskSeries.Proofs.Period.Weekends

/-!
# Where moving an instant gives up

Moving an instant by a period or by calendar units yields nothing only where the exact sum, which is a
moment without a range, is out of range (`Instant.moves_eq_none_iff`). The limits on spans, on steps of
years and on the number of months are never met inside the range. There is one place behind the range
that can be reached: months keep the time of day, and so lead from a leap second into the one that
follows the last second of the range (`Instant.addUnits_lastLeap`).
-/

namespace TaskSeries

open TaskSeries.Calendar TaskSeries.Text

/-! ## Exact sums -/

namespace Calendar.Moment

/-- A number of calendar units later or earlier. -/
def plusUnits (m : Moment) (unit : CalendarUnit) (count : Int) : Moment :=
  match unit with
  | .day => m.plusDays count
  | .week => m.plusDays (7 * count)
  | .month => m.plusMonths count
  | .year => m.plusMonths (12 * count)

/-- The same time on the first day from Monday to Friday that is not earlier. -/
def toWorkday (m : Moment) : Moment :=
  m.plusDays (Weekday.ofDayNumber m.day).daysToWorkday

/-- One period later. -/
def plusPeriod (m : Moment) (p : Period) : Moment :=
  match p with
  | .exact seconds => m.plusSeconds seconds
  | .calendar unit step skipWeekends =>
    if skipWeekends then (m.plusUnits unit step).toWorkday else m.plusUnits unit step

/-- Units that are counted in months lead into the leap second that follows the range. -/
def EndsInLastLeap (m : Moment) (unit : CalendarUnit) (step : Nat) : Prop :=
  unit.months?.isSome ∧ (m.plusUnits unit step).InLastLeap

instance (m : Moment) (unit : CalendarUnit) (step : Nat) : Decidable (m.EndsInLastLeap unit step) :=
  inferInstanceAs (Decidable (_ ∧ _))

variable {m n : Moment} {unit : CalendarUnit}

lemma day_plusDays (m : Moment) (count : Int) : (m.plusDays count).day = m.day + count := by
  show (86400 * (m.second / 86400 + count) + m.second % 86400) / 86400 = m.second / 86400 + count
  omega

/-- The days up to the first workday are days of a weekend. -/
lemma toWorkday_spec (m : Moment) :
    ∃ j : Nat, m.toWorkday = m.plusDays j ∧
      (Weekday.ofDayNumber m.toWorkday.day).isWeekend = false ∧
      ∀ i < j, (Weekday.ofDayNumber (m.plusDays i).day).isWeekend = true := by
  obtain ⟨-, hworkday, hweekend⟩ := Weekday.daysToWorkday_spec m.day
  refine ⟨_, rfl, ?_, fun i hi => ?_⟩
  · unfold toWorkday
    rw [day_plusDays]
    exact hworkday
  · rw [day_plusDays]
    exact hweekend i hi

/-- Days and weeks are counted in days. -/
lemma plusUnits_of_days {days : Nat} (hunit : unit.days? = some days) (m : Moment) (count : Int) :
    m.plusUnits unit count = m.plusDays (days * count) := by
  cases unit with
  | day =>
    obtain rfl : 1 = days := Option.some.inj hunit
    rw [Int.natCast_one, Int.one_mul]
    rfl
  | week =>
    obtain rfl : 7 = days := Option.some.inj hunit
    rfl
  | month => exact absurd hunit nofun
  | year => exact absurd hunit nofun

/-- Months and years are counted in months. -/
lemma plusUnits_of_months {months : Nat} (hunit : unit.months? = some months) (m : Moment)
    (count : Int) : m.plusUnits unit count = m.plusMonths (months * count) := by
  cases unit with
  | day => exact absurd hunit nofun
  | week => exact absurd hunit nofun
  | month =>
    obtain rfl : 1 = months := Option.some.inj hunit
    rw [Int.natCast_one, Int.one_mul]
    rfl
  | year =>
    obtain rfl : 12 = months := Option.some.inj hunit
    rfl

/-- The time of day stays, so that units lead into a leap second from leap seconds only. -/
lemma nano_plusUnits (m : Moment) (unit : CalendarUnit) (count : Int) :
    (m.plusUnits unit count).nano = m.nano := by
  cases unit <;> rfl

/-- What is behind a moment behind the range is behind the range, at the same time of day. -/
lemma not_inRange_of_le (hfirst : firstSecond ≤ m.second) (hout : ¬ m.InRange)
    (hle : m.second ≤ n.second) (hnano : n.nano = m.nano) : ¬ n.InRange := by
  unfold InRange at *
  omega

lemma second_le_toWorkday (m : Moment) : m.second ≤ m.toWorkday.second := by
  unfold toWorkday plusDays onDay day
  dsimp only
  omega

/-- The range ends on a Monday. -/
lemma daysToWorkday_of_inLastLeap (h : m.InLastLeap) :
    (Weekday.ofDayNumber m.day).daysToWorkday = 0 := by
  unfold day
  rw [h.1]
  decide

end Calendar.Moment

namespace Calendar.Instant

variable {r x : Instant} {unit : CalendarUnit} {step : Nat}

/-! ## Calendar units -/

/-- Units are added exactly. -/
lemma moment_of_addUnits (h : r.addUnits unit step = some x) :
    x.moment = r.moment.plusUnits unit step := by
  rcases unit.days_or_months with ⟨days, hdays, -, -⟩ | ⟨months, hmonths, -⟩
  · rw [addUnits_eq_plusDays hdays] at h
    rw [Moment.plusUnits_of_days hdays, ← Int.natCast_mul]
    exact moment_of_plusDays h
  · rw [addUnits_eq_plusMonths hmonths] at h
    rw [Moment.plusUnits_of_months hmonths, ← Int.natCast_mul]
    exact moment_of_plusMonths h

/-- Units are taken away exactly. -/
lemma moment_of_subUnits (h : r.subUnits unit step = some x) :
    x.moment = r.moment.plusUnits unit (-step) := by
  rcases unit.days_or_months with ⟨days, hdays, -, -⟩ | ⟨months, hmonths, -⟩
  · rw [subUnits_eq_plusDays hdays] at h
    rw [Moment.plusUnits_of_days hdays, Int.mul_neg, ← Int.natCast_mul]
    exact moment_of_plusDays h
  · rw [subUnits_eq_plusMonths hmonths] at h
    rw [Moment.plusUnits_of_months hmonths, Int.mul_neg, ← Int.natCast_mul]
    exact moment_of_plusMonths h

/-- Adding units yields nothing exactly where the sum is neither in range nor, by months, in the last
leap second. -/
lemma addUnits_eq_none_iff (hr : r ≤ lastRegular) :
    r.addUnits unit step = none ↔
      ¬ ((r.moment.plusUnits unit step).InRange ∨ r.moment.EndsInLastLeap unit step) := by
  unfold Moment.EndsInLastLeap
  rcases unit.days_or_months with ⟨days, hdays, -, hmonths⟩ | ⟨months, hmonths, -⟩
  · rw [addUnits_eq_plusDays hdays, plusDays_eq_none_iff (.inr hr), Moment.plusUnits_of_days hdays,
      ← Int.natCast_mul, hmonths]
    simp
  · rw [addUnits_eq_plusMonths hmonths, plusMonths_eq_none_iff, Moment.plusUnits_of_months hmonths,
      ← Int.natCast_mul, hmonths]
    simp

/-- Months earlier is not later. -/
lemma plusMonths_neg_le {count : Nat} (h : r.plusMonths (-count) = some x) : x ≤ r := by
  obtain ⟨htime, hdate⟩ := plusMonths_eq_some_iff.mp h
  have hday : x.day ≤ r.day := by
    rw [← dayNumber_date x, ← dayNumber_date r, hdate]
    rcases Nat.eq_zero_or_pos count with rfl | hpos
    · exact Int.le_of_eq (congrArg Date.dayNumber (Date.plusMonths_zero r.valid_date))
    · exact Int.le_of_lt (Date.plusMonths_neg_lt_dayNumber r.valid_date hpos)
  intro hlater
  rw [htime.lt_iff] at hlater
  omega

/-- On the way back there is no leap second that follows the range. -/
lemma subUnits_eq_none_iff (hr : r ≤ lastRegular) :
    r.subUnits unit step = none ↔ ¬ (r.moment.plusUnits unit (-step)).InRange := by
  rcases unit.days_or_months with ⟨days, hdays, -, -⟩ | ⟨months, hmonths, -⟩
  · rw [subUnits_eq_plusDays hdays, plusDays_eq_none_iff (.inr hr), Moment.plusUnits_of_days hdays,
      Int.mul_neg, ← Int.natCast_mul]
  · rw [subUnits_eq_plusMonths hmonths, Moment.plusUnits_of_months hmonths, Int.mul_neg,
      ← Int.natCast_mul, plusMonths_eq_none_iff, or_iff_left_of_imp]
    -- the way would lead into the leap second, and it does not lead to anything later
    intro hleap
    cases hx : r.plusMonths (-(months * step : Nat)) with
    | none => exact absurd (.inr hleap) (plusMonths_eq_none_iff.mp hx)
    | some x =>
      rw [← moment_of_plusMonths hx, inLastLeap_moment_iff] at hleap
      exact absurd (lt_of_lt_of_le hleap (plusMonths_neg_le hx)) hr

/-- Units later is not earlier, in the range or beyond. -/
lemma second_le_plusUnits (r : Instant) (unit : CalendarUnit) (step : Nat) :
    r.second ≤ (r.moment.plusUnits unit step).second := by
  rcases unit.days_or_months with ⟨days, hdays, -, -⟩ | ⟨months, hmonths, -⟩
  · rw [Moment.plusUnits_of_days hdays, ← Int.natCast_mul]
    show r.second ≤ 86400 * (r.second / 86400 + (days * step : Nat)) + r.second % 86400
    omega
  · have hlater := Date.dayNumber_le_plusMonths r.valid_date (months * step)
    rw [Moment.plusUnits_of_months hmonths, ← Int.natCast_mul]
    rw [dayNumber_date] at hlater
    show r.second ≤ 86400 * (r.date.plusMonths _).dayNumber + r.second % 86400
    unfold Instant.day at hlater
    omega

end Calendar.Instant

/-! ## Periods -/

namespace Period

variable {r x : Instant} {unit : CalendarUnit} {step : Nat} {skipWeekends : Bool}

/-- A calendar period adds its units and goes on to a workday if it skips weekends. -/
lemma advance_calendar :
    (calendar unit step skipWeekends).advance r =
      (r.addUnits unit step).bind fun next =>
        if skipWeekends then next.plusDays next.weekday.daysToWorkday else some next := by
  show (r.addUnits unit step).bind (fun next => if skipWeekends then next.skipWeekend else some next)
    = _
  simp only [Instant.skipWeekend_eq]

/-- A period is added exactly. -/
lemma moment_of_advance {p : Period} (h : p.advance r = some x) :
    x.moment = r.moment.plusPeriod p := by
  cases p with
  | exact seconds => exact Instant.moment_of_plusSeconds h
  | calendar unit step skipWeekends =>
    rw [advance_calendar] at h
    obtain ⟨next, hnext, hx⟩ := Option.bind_eq_some_iff.mp h
    have hmoment := Instant.moment_of_addUnits hnext
    cases skipWeekends with
    | false => exact Option.some.inj hx ▸ hmoment
    | true =>
      show x.moment = (r.moment.plusUnits unit step).toWorkday
      rw [← hmoment]
      exact Instant.moment_of_plusDays hx

/-- A calendar period yields nothing exactly where the sum is neither in range nor, by months, in the
last leap second. -/
lemma advance_calendar_eq_none_iff (hr : r ≤ Instant.lastRegular) :
    (calendar unit step skipWeekends).advance r = none ↔
      ¬ ((r.moment.plusPeriod (calendar unit step skipWeekends)).InRange ∨
        r.moment.EndsInLastLeap unit step) := by
  have hunits : r.addUnits unit step = none ↔ _ := Instant.addUnits_eq_none_iff hr
  rw [advance_calendar]
  cases skipWeekends with
  | false =>
    show Option.bind _ (fun next => some next) = none ↔ _
    rw [Option.bind_fun_some]
    exact hunits
  | true =>
    show Option.bind _ (fun next : Instant => next.plusDays next.weekday.daysToWorkday) = none ↔
      ¬ ((r.moment.plusUnits unit step).toWorkday.InRange ∨ r.moment.EndsInLastLeap unit step)
    cases hnext : r.addUnits unit step with
    | none =>
      -- what is behind the range before the weekend is behind it after the weekend
      obtain ⟨hout, hleap⟩ := not_or.mp (hunits.mp hnext)
      have hfirst := Int.le_trans r.representable.1 (Instant.second_le_plusUnits r unit step)
      have hbehind := Moment.not_inRange_of_le hfirst hout (Moment.second_le_toWorkday _) rfl
      exact ⟨fun _ => not_or.mpr ⟨hbehind, hleap⟩, fun _ => rfl⟩
    | some next =>
      have hmoment := Instant.moment_of_addUnits hnext
      have hin := Classical.not_not.mp (mt hunits.mpr (hnext ▸ Option.some_ne_none next))
      rw [Option.bind_some]
      by_cases hzero : next.weekday.daysToWorkday = 0
      · have hstays : (r.moment.plusUnits unit step).toWorkday = r.moment.plusUnits unit step := by
          rw [← hmoment]
          show next.moment.plusDays next.weekday.daysToWorkday = _
          rw [hzero]
          exact Instant.moment_plusDays_zero next
        rw [hzero, hstays]
        exact ⟨nofun, fun hout => absurd hin hout⟩
      · -- the range does not end on a weekend
        have hleap : ¬ r.moment.EndsInLastLeap unit step := fun hends => by
          have hmonday := Moment.daysToWorkday_of_inLastLeap hends.2
          rw [← hmoment] at hmonday
          exact hzero hmonday
        rw [Instant.plusDays_eq_none_iff (.inl (by omega)), or_iff_left hleap, ← hmoment]
        rfl

end Period

/-- Moving an instant of the range yields nothing exactly when the exact sum is out of range: the seconds
added, the days, the clamped day in the month reached, and for periods that skip weekends the first
workday at or behind that, with none but days of a weekend before it. No limit inside turns down anything
else, and the product of seven and a step does not leave 64 bits. Only months and years can end outside
of the range, in the leap second that follows it, and only from a leap second. Whatever comes out is the
exact sum. -/
theorem Calendar.Instant.moves_eq_none_iff {r : Instant} (hr : r ≤ lastRegular) :
    (∀ seconds : Int, (Period.exact seconds).advance r = none ↔
      ¬ (r.moment.plusPeriod (.exact seconds)).InRange) ∧
    (∀ (unit : CalendarUnit) (step : Nat) (skipWeekends : Bool),
      (Period.calendar unit step skipWeekends).advance r = none ↔
        ¬ ((r.moment.plusPeriod (.calendar unit step skipWeekends)).InRange ∨
          r.moment.EndsInLastLeap unit step)) ∧
    (∀ (unit : CalendarUnit) (step : Nat), r.addUnits unit step = none ↔
      ¬ ((r.moment.plusUnits unit step).InRange ∨ r.moment.EndsInLastLeap unit step)) ∧
    (∀ (unit : CalendarUnit) (step : Nat), r.subUnits unit step = none ↔
      ¬ (r.moment.plusUnits unit (-step)).InRange) ∧
    (∀ (unit : CalendarUnit) (step : Nat), r.moment.EndsInLastLeap unit step →
      1000000000 ≤ r.nano) ∧
    (∀ (p : Period) (x : Instant), p.advance r = some x → x.moment = r.moment.plusPeriod p) ∧
    (∀ (unit : CalendarUnit) (step : Nat) (x : Instant),
      (r.addUnits unit step = some x → x.moment = r.moment.plusUnits unit step) ∧
      (r.subUnits unit step = some x → x.moment = r.moment.plusUnits unit (-step))) ∧
    (∀ (unit : CalendarUnit) (step : Nat), ∃ days : Nat,
      r.moment.plusPeriod (.calendar unit step true) = (r.moment.plusUnits unit step).plusDays days ∧
      (Weekday.ofDayNumber (r.moment.plusPeriod (.calendar unit step true)).day).isWeekend = false ∧
      ∀ i < days,
        (Weekday.ofDayNumber ((r.moment.plusUnits unit step).plusDays i).day).isWeekend = true) ∧
    ∀ step : Nat, FitsNat 32 step → FitsNat 64 (7 * step : Nat) := by
  refine ⟨fun seconds => plusSeconds_eq_none_iff hr,
    fun unit step skipWeekends => Period.advance_calendar_eq_none_iff hr,
    fun unit step => addUnits_eq_none_iff hr, fun unit step => subUnits_eq_none_iff hr,
    fun unit step hends => ?_, fun p x => Period.moment_of_advance,
    fun unit step x => ⟨moment_of_addUnits, moment_of_subUnits⟩,
    fun unit step => Moment.toWorkday_spec (r.moment.plusUnits unit step), fun step hstep => ?_⟩
  · have hnano := hends.2.2
    rw [Moment.nano_plusUnits] at hnano
    exact hnano
  · obtain ⟨-, hsmall⟩ := hstep
    have hroom : 7 * twoTo 32 < twoTo 64 := by decide
    exact ⟨Int.natCast_nonneg _, by omega⟩

/-- From its last second the range can be left forwards only. -/
theorem Calendar.Instant.moves_eq_none_iff_lastRegular :
    lastRegular ≤ lastRegular ∧
    (Period.exact 1).advance lastRegular = none ∧ Period.weekdays.advance lastRegular = none ∧
    lastRegular.addUnits .year 357913942 = none ∧ lastRegular.subUnits .year 524285 ≠ none ∧
    lastRegular.subUnits .year 524286 = none ∧
    (Weekday.ofDayNumber (lastRegular.moment.plusUnits .day 5).day = .saturday ∧
      (Weekday.ofDayNumber (lastRegular.moment.plusPeriod (.calendar .day 5 true)).day).isWeekend =
        false) ∧
    FitsNat 64 (7 * 4294967295 : Nat) := by
  have hlast : lastRegular ≤ lastRegular := by decide
  obtain ⟨hseconds, hperiods, hadd, hsub, -, -, -, hworkdays, hfits⟩ := moves_eq_none_iff hlast
  obtain ⟨_, -, hworkday, -⟩ := hworkdays .day 5
  exact ⟨hlast, (hseconds 1).mpr (by decide), (hperiods .day 1 true).mpr (by decide),
    (hadd .year 357913942).mpr (by decide), mt (hsub .year 524285).mp (by decide),
    (hsub .year 524286).mpr (by decide), ⟨by decide, hworkday⟩, hfits 4294967295 (by decide)⟩

/-- A year leads from the leap second at the end of the year +262141 into the one that follows the range,
although the sum is out of range; a day does not lead there. -/
theorem Calendar.Instant.addUnits_lastLeap :
    let yearBefore : Instant := ⟨8210235340799, 1000000000, by decide⟩
    let dayBefore : Instant := ⟨8210266790399, 1000000000, by decide⟩
    let lastLeap : Instant := ⟨8210266876799, 1000000000, by decide⟩
    yearBefore.date = ⟨262141, 12, 31⟩ ∧ lastLeap.date = ⟨262142, 12, 31⟩ ∧
    yearBefore ≤ lastRegular ∧ yearBefore.addUnits .year 1 = some lastLeap ∧
    ¬ (yearBefore.addUnits .year 1 = none ↔ ¬ (yearBefore.moment.plusUnits .year 1).InRange) ∧
    dayBefore.addUnits .day 1 = none := by
  decide

end TaskSeries
