import TaskSeries.Proofs.Calendar.Moment
import TaskSeries.Proofs.Period.Units

/-!
# There and back

Taking away what was added leads back to the beginning where nothing was cut off on the way. Days lead
back to the instant itself (`Instant.plusDays_back`), months to the same month and time of day, on the day
that the other month left of the first one (`Instant.exists_plusMonths_back`). Seconds lead back from
everywhere but a leap second, in which a sum never ends (`Instant.plusSeconds_back`).
-/

namespace TaskSeries

open TaskSeries.Calendar

/-! ## Dates -/

namespace Calendar

namespace Date

variable {d : Date}

/-- Some months later or earlier and back again it is the same month, on the day that is left. -/
lemma day_plusMonths_back (h : d.Valid) (count : Int) :
    ((d.plusMonths count).plusMonths (-count)).day =
      min d.day (monthLength (d.plusMonths count).year (d.plusMonths count).month) := by
  have hlast : d.day ≤ lengthAt d.monthIndex := (dayNumber_eq h).2 ▸ h.2.2.2
  rw [(dayNumber_eq (valid_plusMonths h count)).2, day_plusMonths, day_plusMonths,
    monthIndex_plusMonths, Int.add_neg_cancel_right]
  omega

/-- Months there and back lead to the same month. -/
lemma monthIndex_plusMonths_back (d : Date) (count : Int) :
    ((d.plusMonths count).plusMonths (-count)).monthIndex = d.monthIndex := by
  rw [monthIndex_plusMonths, monthIndex_plusMonths, Int.add_neg_cancel_right]

lemma year_eq_of_monthIndex {e : Date} (hd : d.Valid) (he : e.Valid)
    (h : d.monthIndex = e.monthIndex) : d.year = e.year ∧ d.month = e.month := by
  obtain ⟨hmonth, hmonth', -, -⟩ := hd
  obtain ⟨hmonth₂, hmonth₂', -, -⟩ := he
  unfold monthIndex at h
  omega

end Date

namespace Instant

variable {i j : Instant} {count : Int}

/-! ## Days -/

/-- Days lead back to where they began, unless it was in the leap second that follows the range. -/
lemma plusDays_back (hbegin : i ≤ lastRegular ∨ 0 ≤ count) (h : i.plusDays count = some j) :
    j.plusDays (-count) = some i := by
  by_cases hcount : count = 0
  · rw [hcount, plusDays_zero] at h
    rw [hcount, Int.neg_zero, plusDays_zero, h]
  · obtain ⟨hday, htime, hregular⟩ := (plusDays_eq_some_iff hcount).mp h
    refine (plusDays_eq_some_iff (by omega)).mpr ⟨by omega, htime.symm, ?_⟩
    rcases hbegin with hi | hlater
    · exact hi
    · -- a later day in the range, so that the first one is in the range as well
      intro hleap
      exact hregular (lt_trans hleap (htime.lt_iff.mpr (by omega)))

/-! ## Months -/

/-- The range begins on the first day of a month. -/
lemma firstSecond_le_monthStart (i : Instant) :
    firstSecond ≤ 86400 * monthStart i.date.monthIndex := by
  have hbegin : 86400 * monthStart (-3145716) = firstSecond := by decide
  obtain ⟨hday, hlength⟩ := Date.dayNumber_eq i.valid_date
  have hlast := i.valid_date.2.2.2
  have hover := monthStart_succ i.date.monthIndex
  obtain ⟨hfirst, -, -⟩ := i.representable
  rw [dayNumber_date] at hday
  unfold Instant.day at hday
  rw [← hbegin] at hfirst ⊢
  by_cases hmonth : -3145716 ≤ i.date.monthIndex
  · have hmono := monthStart_mono hmonth
    omega
  · -- an earlier month is over when the range begins
    have hmono := monthStart_mono (show i.date.monthIndex + 1 ≤ -3145716 by omega)
    omega

/-- The days from the first one of the range up to one that can be represented can be too. -/
lemma exists_onDay?_of_le {day : Int} (hfirst : firstSecond ≤ 86400 * day) (hto : day ≤ i.day)
    (htime : SameTime i j) : ∃ k, j.onDay? day = some k := by
  have hi := i.representable
  have hj := j.representable
  have hsecond := htime.1
  have hday : Representable (86400 * day + j.secondOfDay) j.nano := by
    unfold Representable Instant.day secondOfDay at *
    omega
  exact ⟨_, dif_pos hday⟩

/-- The instant `back` is where a way by months leads back to that led from `i` to `j`. -/
structure CutBack (i j back : Instant) : Prop where
  time : SameTime i back
  year : back.date.year = i.date.year
  month : back.date.month = i.date.month
  /-- The day that the month of `j` has left of the one of `i`. -/
  day : back.date.day = min i.date.day (monthLength j.date.year j.date.month)
  le : back ≤ i
  /-- The beginning is reached exactly when its day was not cut. -/
  eq_iff : back = i ↔ j.date.day = i.date.day

/-- Months lead back to the month and the time of day at which they began. -/
lemma exists_plusMonths_back (h : i.plusMonths count = some j) :
    ∃ back, j.plusMonths (-count) = some back ∧ CutBack i j back := by
  obtain ⟨htime, hdate⟩ := plusMonths_eq_some_iff.mp h
  have hvalid := i.valid_date
  have hday := Date.day_plusMonths_back hvalid count
  have hindex := Date.monthIndex_plusMonths_back i.date count
  rw [← hdate] at hday hindex
  have hback := Date.valid_plusMonths j.valid_date (-count)
  obtain ⟨hyear, hmonth⟩ := Date.year_eq_of_monthIndex hback hvalid hindex
  -- the way back ends between the beginning of the month and `i`
  have hnumber := (Date.dayNumber_eq hback).1
  have hinumber := (Date.dayNumber_eq hvalid).1
  rw [hindex] at hnumber
  rw [dayNumber_date] at hinumber
  have hfirst := hback.2.2.1
  have hbegin := firstSecond_le_monthStart i
  have hbegins : firstSecond ≤ 86400 * (j.date.plusMonths (-count)).dayNumber := by omega
  obtain ⟨back, hk⟩ := exists_onDay?_of_le hbegins (by omega) htime
  obtain ⟨hkday, hktime⟩ := onDay?_eq_some_iff.mp hk
  have hkdate := (date_eq_iff hback).mpr hkday
  have hsame := htime.trans hktime
  refine ⟨back, hk, hsame, ?_, ?_, ?_, ?_, ?_⟩
  · rw [hkdate, hyear]
  · rw [hkdate, hmonth]
  · rw [hkdate, hday]
  · intro hlater
    rw [hsame.lt_iff] at hlater
    omega
  · -- on the way back nothing is cut off, so that the day is the one of `j`
    have hcut : j.date.day = min i.date.day (monthLength j.date.year j.date.month) := by
      rw [(Date.dayNumber_eq j.valid_date).2, hdate, Date.day_plusMonths, Date.monthIndex_plusMonths]
    have hdays : back.date.day = j.date.day := by rw [hkdate, hday, hcut]
    rw [← hdays]
    refine ⟨fun h => by rw [h], fun h => ext_of_date ?_ hsame.symm⟩
    refine Date.ext_of_monthIndex back.valid_date hvalid ?_ h
    rw [hkdate, hindex]

/-! ## Seconds -/

/-- The way back is open where the sum of both ways is an instant. -/
lemma plusSeconds_back_eq_of? (h : i.plusSeconds count = some j) :
    j.plusSeconds (-count) = of? ((i.moment.plusSeconds count).plusSeconds (-count)).second
      ((i.moment.plusSeconds count).plusSeconds (-count)).nano := by
  have hspan := not_long_of_plusSeconds h
  rw [plusSeconds_eq_of? (by omega), moment_of_plusSeconds h]

/-- Seconds lead back to where they began, unless it was in a leap second. -/
lemma plusSeconds_back (hregular : i.nano < 1000000000 ∨ count = 0)
    (h : i.plusSeconds count = some j) : j.plusSeconds (-count) = some i := by
  have hthere : i.moment.plusSeconds count = ⟨i.second + count, i.nano⟩ := if_pos hregular
  have hback : Moment.plusSeconds ⟨i.second + count, i.nano⟩ (-count) = i.moment := by
    unfold Moment.plusSeconds
    rw [if_pos (hregular.imp_right (by omega)), Int.add_neg_cancel_right]
    rfl
  rw [plusSeconds_back_eq_of? h, hthere, hback]
  exact of?_eq_some_iff.mpr ⟨rfl, rfl⟩

/-- From a leap second a way by seconds leads back to the second before it, and to the one behind it when
it went back first. -/
lemma plusSeconds_back_of_leap (hleap : 1000000000 ≤ i.nano) (hcount : count ≠ 0)
    (h : i.plusSeconds count = some j) :
    j.plusSeconds (-count) =
      of? (if 0 < count then i.second else i.second + 1) (i.nano - 1000000000) := by
  have hnano := i.nano_lt
  have hregular : i.nano - 1000000000 < 1000000000 := by omega
  have hout : ¬ (i.nano < 1000000000 ∨ count = 0) := by omega
  have hthere : i.moment.plusSeconds count =
      ⟨(if 0 < count then i.second else i.second + 1) + count, i.nano - 1000000000⟩ := by
    unfold Moment.plusSeconds
    rw [moment_second, moment_nano, if_neg hout]
    split_ifs <;> rfl
  rw [plusSeconds_back_eq_of? h, hthere]
  unfold Moment.plusSeconds
  rw [if_pos (.inl hregular), Int.add_neg_cancel_right]

end Instant

end Calendar

/-- Taking away mirrors adding. Days and weeks lead back to the beginning. Months and years lead back to
the month and the time of day at which they began, on its day or on the last one that the other month has;
the beginning is reached exactly when no day was cut off. Exact periods lead back to the beginning too,
from everywhere but a leap second, which is not counted among the seconds: from there the way ends a
second before it, or behind it when it went back first. The leap second that follows the range cannot be
reached by days again either. -/
theorem Calendar.Instant.there_and_back (r : Instant) :
    (∀ (unit : CalendarUnit) (step : Nat) (x : Instant), unit = .day ∨ unit = .week →
      (r.addUnits unit step = some x → x.subUnits unit step = some r) ∧
      (r ≤ lastRegular → r.subUnits unit step = some x → x.addUnits unit step = some r)) ∧
    (∀ (unit : CalendarUnit) (step : Nat) (x : Instant), unit = .month ∨ unit = .year →
      (r.addUnits unit step = some x →
        ∃ back, x.subUnits unit step = some back ∧ CutBack r x back) ∧
      (r.subUnits unit step = some x →
        ∃ back, x.addUnits unit step = some back ∧ CutBack r x back)) ∧
    ∀ (seconds : Int) (x : Instant), (Period.exact seconds).shift true r = some x →
      (r.nano < 1000000000 ∨ seconds = 0 → (Period.exact seconds).shift false x = some r) ∧
      (1000000000 ≤ r.nano → seconds ≠ 0 → (Period.exact seconds).shift false x =
        of? (if 0 < seconds then r.second else r.second + 1) (r.nano - 1000000000)) := by
  refine ⟨fun unit step x hunit => ?_, fun unit step x hunit => ?_, fun seconds x hx =>
    ⟨fun hregular => plusSeconds_back hregular hx, fun hleap hne =>
      plusSeconds_back_of_leap hleap hne hx⟩⟩
  · obtain ⟨days, hdays⟩ : ∃ days, unit.days? = some days := by
      rcases hunit with rfl | rfl
      · exact ⟨1, rfl⟩
      · exact ⟨7, rfl⟩
    rw [addUnits_eq_plusDays hdays, subUnits_eq_plusDays hdays, addUnits_eq_plusDays hdays,
      subUnits_eq_plusDays hdays]
    refine ⟨plusDays_back (.inr (Int.natCast_nonneg _)), fun hr hx => ?_⟩
    rw [← Int.neg_neg (days * step : Nat)]
    exact plusDays_back (.inl hr) hx
  · obtain ⟨months, hmonths⟩ : ∃ months, unit.months? = some months := by
      rcases hunit with rfl | rfl
      · exact ⟨1, rfl⟩
      · exact ⟨12, rfl⟩
    simp only [addUnits_eq_plusMonths hmonths, subUnits_eq_plusMonths hmonths]
    refine ⟨exists_plusMonths_back, fun hx => ?_⟩
    rw [← Int.neg_neg (months * step : Nat)]
    exact exists_plusMonths_back hx

/-- From 31 January a month leads to 28 February and back to 28 January, a week back to 24 January
and forwards to 31 January again, and an hour there and back. -/
theorem Calendar.Instant.there_and_back_endOfJanuary :
    let january : Instant := ⟨2592000, 0, by decide⟩
    let february : Instant := ⟨5011200, 0, by decide⟩
    let weekBefore : Instant := ⟨1987200, 0, by decide⟩
    let hourLater : Instant := ⟨2595600, 0, by decide⟩
    (january.addUnits .month 1 = some february ∧
      ∃ back, february.subUnits .month 1 = some back ∧ CutBack january february back) ∧
    (january ≤ lastRegular ∧ january.subUnits .week 1 = some weekBefore ∧
      weekBefore.addUnits .week 1 = some january) ∧
    (january.nano < 1000000000 ∧ (Period.exact 3600).shift true january = some hourLater ∧
      (Period.exact 3600).shift false hourLater = some january) := by
  intro january february weekBefore hourLater
  obtain ⟨hdays, hmonths, hseconds⟩ := there_and_back january
  have hmonth : january.addUnits .month 1 = some february := by decide
  have hweek : january.subUnits .week 1 = some weekBefore := by decide
  have hhour : (Period.exact 3600).shift true january = some hourLater := by decide
  exact ⟨⟨hmonth, (hmonths .month 1 february (.inl rfl)).1 hmonth⟩,
    ⟨by decide, hweek, (hdays .week 1 weekBefore (.inr rfl)).2 (by decide) hweek⟩,
    ⟨by decide, hhour, (hseconds 3600 hourLater hhour).1 (.inl (by decide))⟩⟩

/-- An hour from the leap second of 2016 and back again ends a second early, and a day back from the leap
second that follows the range cannot be taken forwards again. -/
theorem Calendar.Instant.leapSecond_not_back :
    let leap : Instant := ⟨1483228799, 1000000000, by decide⟩
    let hourLater : Instant := ⟨1483232399, 0, by decide⟩
    let lastLeap : Instant := ⟨8210266876799, 1000000000, by decide⟩
    let dayBefore : Instant := ⟨8210266790399, 1000000000, by decide⟩
    ((Period.exact 3600).shift true leap = some hourLater ∧
      (Period.exact 3600).shift false hourLater ≠ some leap) ∧
    lastLeap.subUnits .day 1 = some dayBefore ∧ dayBefore.addUnits .day 1 ≠ some lastLeap := by
  decide

end TaskSeries
