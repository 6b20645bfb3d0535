import TaskSeries.Proofs.Calendar.Days

/-!
# Moments beyond the range

The arithmetic on instants without its range: a `Moment` is any second and the nanoseconds in it, and
every sum of moments is one. On instants the sums are the same (`Instant.moment_of_plusDays` and the
lemmas beside it), and there is none exactly when the moment is out of range
(`Instant.plusDays_eq_none_iff`, `Instant.plusSeconds_eq_none_iff`). Moving by months can also end in the
leap second behind the range (`Instant.plusMonths_eq_none_iff`).
-/

namespace TaskSeries.Calendar

/-- A second since 1970 and the nanoseconds in it, in the range or beyond. Nanoseconds from a thousand
million on are in the leap second behind the second. -/
structure Moment where
  second : Int
  nano : Nat
deriving DecidableEq, Repr

namespace Moment

/-! ## Exact sums -/

/-- The day of a moment, counted from 1970-01-01. -/
def day (m : Moment) : Int := m.second / 86400

/-- The same time of day on another day. -/
def onDay (m : Moment) (day : Int) : Moment := ⟨86400 * day + m.second % 86400, m.nano⟩

/-- The same time of day a number of days later or earlier. -/
def plusDays (m : Moment) (count : Int) : Moment := m.onDay (m.day + count)

/-- The same time of day a number of months later or earlier, the day cut to the month reached. -/
def plusMonths (m : Moment) (count : Int) : Moment :=
  m.onDay ((Date.ofDayNumber m.day).plusMonths count).dayNumber

/-- A number of seconds later or earlier. A leap second is a second of its own on the way out of it. -/
def plusSeconds (m : Moment) (count : Int) : Moment :=
  if m.nano < 1000000000 ∨ count = 0 then ⟨m.second + count, m.nano⟩
  else if 0 < count then ⟨m.second + count, m.nano - 1000000000⟩
  else ⟨m.second + 1 + count, m.nano - 1000000000⟩

/-! ## The range -/

/-- Between -262143-01-01T00:00:00Z and +262142-12-31T23:59:59.999999999Z, both of them included. -/
def InRange (m : Moment) : Prop :=
  firstSecond ≤ m.second ∧
    (m.second < lastSecond ∨ m.second = lastSecond ∧ m.nano < 1000000000)

/-- In the leap second that follows the range, +262142-12-31T23:59:60Z. -/
def InLastLeap (m : Moment) : Prop :=
  m.second = lastSecond ∧ 1000000000 ≤ m.nano

instance (m : Moment) : Decidable m.InRange :=
  inferInstanceAs (Decidable (_ ∧ _))

instance (m : Moment) : Decidable m.InLastLeap :=
  inferInstanceAs (Decidable (_ ∧ _))

end Moment

namespace Instant

/-- An instant as a moment. -/
def moment (i : Instant) : Moment := ⟨i.second, i.nano⟩

@[simp] lemma moment_second (i : Instant) : i.moment.second = i.second := rfl

@[simp] lemma moment_nano (i : Instant) : i.moment.nano = i.nano := rfl

variable {i j : Instant} {count : Int}

/-- The moment of an instant is in range unless it lies in the last leap second. -/
lemma inRange_moment_iff (i : Instant) : i.moment.InRange ↔ i ≤ lastRegular := by
  have hlast : i ≤ lastRegular ↔ ¬ (i.second = lastSecond ∧ 1000000000 ≤ i.nano) :=
    not_congr (lastRegular_lt_iff i)
  obtain ⟨hfirst, hbound, -⟩ := i.representable
  rw [hlast]
  unfold Moment.InRange
  rw [moment_second, moment_nano]
  omega

lemma inLastLeap_moment_iff (i : Instant) : i.moment.InLastLeap ↔ lastRegular < i :=
  (lastRegular_lt_iff i).symm

/-! ## Days -/

/-- Moving an instant to another day gives the exact moment on that day. -/
lemma moment_of_onDay? {day : Int} (h : i.onDay? day = some j) : j.moment = i.moment.onDay day := by
  obtain ⟨hsecond, hnano⟩ := of?_eq_some_iff.mp h
  unfold moment
  rw [hsecond, hnano]
  rfl

/-- No instant has the second and nanoseconds of a moment exactly when the moment is out of range, the
leap second that follows the range counting as in it. -/
lemma of?_eq_none_iff {m : Moment}
    (h : m.nano < 1000000000 ∨ m.nano < 2000000000 ∧ m.second % 60 = 59) :
    of? m.second m.nano = none ↔ ¬ (m.InRange ∨ m.InLastLeap) := by
  have hrepresentable : Representable m.second m.nano ↔ m.InRange ∨ m.InLastLeap := by
    unfold Representable Moment.InRange Moment.InLastLeap firstSecond lastSecond
    omega
  rw [← hrepresentable]
  unfold of?
  rw [dite_eq_right_iff]
  exact ⟨fun hout hin => absurd (hout hin) nofun, fun hout hin => absurd hin hout⟩

/-- An instant cannot be moved to a day exactly when the moment there is neither in range nor in the last
leap second. -/
lemma onDay?_eq_none_iff {day : Int} :
    i.onDay? day = none ↔
      ¬ ((i.moment.onDay day).InRange ∨ (i.moment.onDay day).InLastLeap) := by
  obtain ⟨-, -, hnano⟩ := i.representable
  refine of?_eq_none_iff (m := i.moment.onDay day) ?_
  -- a second of another day is as far from the end of a minute
  unfold Moment.onDay
  dsimp only [moment_second, moment_nano]
  omega

lemma moment_plusDays_zero (i : Instant) : i.moment.plusDays 0 = i.moment := by
  unfold Moment.plusDays Moment.onDay Moment.day
  rw [Int.add_zero, Int.mul_ediv_add_emod]

/-- Days are added exactly. -/
lemma moment_of_plusDays (h : i.plusDays count = some j) : j.moment = i.moment.plusDays count := by
  by_cases hcount : count = 0
  · rw [hcount, moment_plusDays_zero]
    rw [hcount, plusDays_zero] at h
    rw [Option.some.inj h]
  · unfold plusDays at h
    rw [if_neg hcount] at h
    exact moment_of_onDay? (Option.filter_eq_some_iff.mp h).1

/-- No instant is a number of days away exactly when the moment is out of range. -/
lemma plusDays_eq_none_iff (h : count ≠ 0 ∨ i ≤ lastRegular) :
    i.plusDays count = none ↔ ¬ (i.moment.plusDays count).InRange := by
  by_cases hcount : count = 0
  · have hin : i.moment.InRange := (inRange_moment_iff i).mpr (h.resolve_left (not_not_intro hcount))
    rw [hcount, moment_plusDays_zero, plusDays_zero]
    exact ⟨nofun, fun hout => absurd hin hout⟩
  · have honDay := @onDay?_eq_none_iff i (i.day + count)
    unfold plusDays
    rw [if_neg hcount]
    show _ ↔ ¬ (i.moment.onDay (i.day + count)).InRange
    cases hj : i.onDay? (i.day + count) with
    | none =>
      rw [hj] at honDay
      exact ⟨fun _ hin => honDay.mp rfl (.inl hin), fun _ => rfl⟩
    | some j =>
      -- a day that can be represented is turned down in the leap second behind the range only
      rw [← moment_of_onDay? hj, inRange_moment_iff, Option.filter_some]
      by_cases hregular : j ≤ lastRegular
      · simp [hregular]
      · simp [hregular]

/-! ## Months -/

/-- Months are added exactly. -/
lemma moment_of_plusMonths (h : i.plusMonths count = some j) :
    j.moment = i.moment.plusMonths count :=
  moment_of_onDay? h

/-- Months end in the range, or in the leap second that follows it. -/
lemma plusMonths_eq_none_iff :
    i.plusMonths count = none ↔
      ¬ ((i.moment.plusMonths count).InRange ∨ (i.moment.plusMonths count).InLastLeap) :=
  onDay?_eq_none_iff

/-! ## Seconds -/

/-- Where the span is not too long, the sum alone decides whether seconds can be added. -/
lemma plusSeconds_eq_of? (hspan : ¬ (count < -longestSpan ∨ longestSpan < count)) :
    i.plusSeconds count =
      of? (i.moment.plusSeconds count).second (i.moment.plusSeconds count).nano := by
  unfold plusSeconds Moment.plusSeconds
  rw [if_neg hspan, moment_second, moment_nano]
  split_ifs <;> rfl

lemma not_long_of_plusSeconds (h : i.plusSeconds count = some j) :
    ¬ (count < -longestSpan ∨ longestSpan < count) := by
  intro hlong
  unfold plusSeconds at h
  rw [if_pos hlong] at h
  exact absurd h nofun

/-- Seconds are added exactly. -/
lemma moment_of_plusSeconds (h : i.plusSeconds count = some j) :
    j.moment = i.moment.plusSeconds count := by
  rw [plusSeconds_eq_of? (not_long_of_plusSeconds h)] at h
  obtain ⟨hsecond, hnano⟩ := of?_eq_some_iff.mp h
  show (⟨j.second, j.nano⟩ : Moment) = _
  rw [hsecond, hnano]

/-- Seconds lead into no leap second. -/
lemma nano_plusSeconds_lt (i : Instant) (hcount : count ≠ 0) :
    (i.moment.plusSeconds count).nano < 1000000000 := by
  have hnano := i.nano_lt
  unfold Moment.plusSeconds
  rw [moment_nano]
  split_ifs with hregular <;> dsimp only
  · exact hregular.resolve_right hcount
  · omega
  · omega

/-- The longest span that can be added at once is longer than the range. -/
lemma not_inRange_plusSeconds (i : Instant) (hlong : count < -longestSpan ∨ longestSpan < count) :
    ¬ (i.moment.plusSeconds count).InRange := by
  obtain ⟨hfirst, hlast, -⟩ := i.representable
  have hcount : count ≠ 0 := by
    unfold longestSpan at hlong
    omega
  have hsecond : (i.moment.plusSeconds count).second = i.second + count ∨
      (i.moment.plusSeconds count).second = i.second + 1 + count := by
    unfold Moment.plusSeconds
    split_ifs
    · exact .inl rfl
    · exact .inl rfl
    · exact .inr rfl
  unfold Moment.InRange
  unfold longestSpan firstSecond lastSecond at *
  omega

/-- No instant is a number of seconds away exactly when the moment is out of range. -/
lemma plusSeconds_eq_none_iff (h : i ≤ lastRegular) :
    i.plusSeconds count = none ↔ ¬ (i.moment.plusSeconds count).InRange := by
  by_cases hspan : count < -longestSpan ∨ longestSpan < count
  · -- a span that cannot be added leaves the range from everywhere
    have hout := not_inRange_plusSeconds i hspan
    unfold plusSeconds
    rw [if_pos hspan]
    exact ⟨fun _ => hout, fun _ => rfl⟩
  · rw [plusSeconds_eq_of? hspan]
    by_cases hcount : count = 0
    · have hstays : i.moment.plusSeconds 0 = i.moment := by
        unfold Moment.plusSeconds
        rw [if_pos (.inr rfl), Int.add_zero]
      have hof : of? i.moment.second i.moment.nano = some i := of?_eq_some_iff.mpr ⟨rfl, rfl⟩
      rw [hcount, hstays, hof]
      exact ⟨nofun, fun hout => absurd ((inRange_moment_iff i).mpr h) hout⟩
    · -- the leap second behind the range is not reached
      have hnano := nano_plusSeconds_lt i hcount
      rw [of?_eq_none_iff (.inl hnano), or_iff_left]
      exact fun hleap => absurd hnano (Nat.not_lt.mpr hleap.2)

end Instant

end TaskSeries.Calendar
