import TaskSeries.Proofs.Calendar.Date
import TaskSeries.Proofs.Calendar.Millis

/-!
# Days at the same time

An instant is its day, or its date, and its time of day (`Instant.ext_of_day`, `Instant.ext_of_date`), and
moving it by days changes the day only (`Instant.plusDays_eq_some_iff`). Days in between two that can be represented can be represented
too, so that a number of days can be added at once or in parts (`Instant.plusDays_plusDays`).
-/

namespace TaskSeries.Calendar.Instant

variable {i j k : Instant} {day : Int}

/-- The instants are at the same time of day, leap seconds included. -/
def SameTime (i j : Instant) : Prop :=
  i.secondOfDay = j.secondOfDay ∧ i.nano = j.nano

lemma SameTime.refl (i : Instant) : SameTime i i := ⟨rfl, rfl⟩

lemma SameTime.symm (h : SameTime i j) : SameTime j i := ⟨h.1.symm, h.2.symm⟩

lemma SameTime.trans (h : SameTime i j) (h' : SameTime j k) : SameTime i k :=
  ⟨h.1.trans h'.1, h.2.trans h'.2⟩

lemma second_eq (i : Instant) : i.second = 86400 * i.day + i.secondOfDay := by
  unfold Instant.day secondOfDay
  omega

/-- An instant is given by its day and its time of day. -/
lemma ext_of_day (hday : i.day = j.day) (htime : SameTime i j) : i = j := by
  have hsecond : i.second = j.second := by rw [second_eq, second_eq j, hday, htime.1]
  obtain ⟨second, nano, hi⟩ := i
  obtain ⟨second', nano', hj⟩ := j
  obtain rfl : second = second' := hsecond
  obtain rfl : nano = nano' := htime.2
  rfl

lemma valid_date (i : Instant) : i.date.Valid := Date.valid_ofDayNumber i.day

lemma dayNumber_date (i : Instant) : i.date.dayNumber = i.day := Date.dayNumber_ofDayNumber i.day

/-- An instant is on a date exactly when its day has the number of the date. -/
lemma date_eq_iff {d : Date} (h : d.Valid) : i.date = d ↔ i.day = d.dayNumber := by
  constructor
  · rintro rfl
    exact (dayNumber_date i).symm
  · intro hday
    unfold date
    rw [hday]
    exact Date.ofDayNumber_dayNumber h

/-- An instant is given by its date and its time of day. -/
lemma ext_of_date (hdate : i.date = j.date) (htime : SameTime i j) : i = j := by
  refine ext_of_day ?_ htime
  rw [← dayNumber_date i, hdate, dayNumber_date]

/-- At the same time of day, the earlier day is the earlier instant. -/
lemma SameTime.lt_iff (h : SameTime i j) : i < j ↔ i.day < j.day := by
  have hsecond := h.1
  have hnano := h.2
  show i.second < j.second ∨ i.second = j.second ∧ i.nano < j.nano ↔ _
  unfold secondOfDay at hsecond
  unfold Instant.day
  omega

/-- An instant is moved to the instant with the same time on the other day, if there is one. -/
lemma onDay?_eq_some_iff : i.onDay? day = some j ↔ j.day = day ∧ SameTime i j := by
  unfold onDay? SameTime Instant.day secondOfDay
  rw [of?_eq_some_iff]
  omega

/-- Between two days that can be represented, every day can be. -/
lemma exists_onDay? (hfrom : i.day ≤ day) (hto : day ≤ j.day) (htime : SameTime i j) :
    ∃ k, i.onDay? day = some k := by
  have hi := i.representable
  have hj := j.representable
  have hsecond := htime.1
  have hday : Representable (86400 * day + i.secondOfDay) i.nano := by
    unfold Representable Instant.day secondOfDay at *
    omega
  exact ⟨_, dif_pos hday⟩

lemma plusDays_zero (i : Instant) : i.plusDays 0 = some i := rfl

/-- Some days later is the same time on the day counted on, in a regular second at the end of the
range. -/
lemma plusDays_eq_some_iff {count : Int} (hcount : count ≠ 0) :
    i.plusDays count = some j ↔ j.day = i.day + count ∧ SameTime i j ∧ j ≤ lastRegular := by
  unfold plusDays
  rw [if_neg hcount, Option.filter_eq_some_iff, onDay?_eq_some_iff, decide_eq_true_eq, and_assoc]

/-- Adding days keeps the time of day. -/
lemma sameTime_plusDays {count : Int} (h : i.plusDays count = some j) : SameTime i j := by
  by_cases hcount : count = 0
  · rw [hcount, plusDays_zero] at h
    rw [← Option.some.inj h]
    exact .refl i
  · exact ((plusDays_eq_some_iff hcount).mp h).2.1

/-- Days are added at once or in two parts. -/
lemma plusDays_plusDays (i : Instant) (a b : Nat) :
    (i.plusDays a).bind (fun j => j.plusDays b) = i.plusDays (a + b : Nat) := by
  by_cases ha : a = 0
  · rw [ha, Nat.zero_add]
    rfl
  by_cases hb : b = 0
  · rw [hb]
    exact Option.bind_fun_some _
  ext k
  rw [Option.bind_eq_some_iff, plusDays_eq_some_iff (by omega)]
  constructor
  · rintro ⟨j, hj, hk⟩
    obtain ⟨hjday, hjtime, -⟩ := (plusDays_eq_some_iff (by omega)).mp hj
    obtain ⟨hkday, hktime, hregular⟩ := (plusDays_eq_some_iff (by omega)).mp hk
    exact ⟨by omega, hjtime.trans hktime, hregular⟩
  · rintro ⟨hkday, hktime, hregular⟩
    have hfrom : i.day ≤ i.day + a := by omega
    have hto : i.day + a ≤ k.day := by omega
    obtain ⟨j, hj⟩ := exists_onDay? hfrom hto hktime
    obtain ⟨hjday, hjtime⟩ := onDay?_eq_some_iff.mp hj
    have hjk : SameTime j k := hjtime.symm.trans hktime
    have hbefore : j < k := hjk.lt_iff.mpr (by omega)
    have hjregular : j ≤ lastRegular := fun hlast =>
      hregular (lt_trans hlast hbefore)
    exact ⟨j, (plusDays_eq_some_iff (by omega)).mpr ⟨hjday, hjtime, hjregular⟩,
      (plusDays_eq_some_iff (by omega)).mpr ⟨by omega, hjk, hregular⟩⟩

end TaskSeries.Calendar.Instant
