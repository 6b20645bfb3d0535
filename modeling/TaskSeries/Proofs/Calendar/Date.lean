import Mathlib.Tactic.Lemma
import Mathlib.Tactic.SplitIfs
import TaskSeries.Calendar.Date

/-!
# Dates and days

Years and months follow each other without a gap: the day on which one ends is the day before the next
one begins (`yearStart_succ`, `monthStart_succ`). So every day has a date that exists and whose day it is
(`Date.valid_ofDayNumber`, `Date.dayNumber_ofDayNumber`), and a date some months later or earlier is a
later or earlier day, also when the day of the month had to be cut off
(`Date.dayNumber_lt_plusMonths`, `Date.plusMonths_neg_lt_dayNumber`).
-/

namespace TaskSeries.Calendar

/-! ## Years -/

/-- The days before a month are those before the last month, and the days of that. -/
lemma daysBeforeMonth_succ (year : Int) {month : Nat} (h : 1 ≤ month) :
    daysBeforeMonth year (month + 1) = daysBeforeMonth year month + monthLength year month := by
  obtain ⟨m, rfl⟩ := Nat.exists_eq_add_of_le h
  rw [Nat.add_comm 1 m]
  rfl

/-- No month is shorter than a February of a common year. -/
lemma twentyEight_le_monthLength (year : Int) (month : Nat) : 28 ≤ monthLength year month := by
  unfold monthLength
  split
  · split_ifs <;> omega
  all_goals omega

lemma monthLength_le (year : Int) (month : Nat) : monthLength year month ≤ 31 := by
  unfold monthLength
  split
  · split_ifs <;> omega
  all_goals omega

/-- The Gregorian rule for leap years. -/
lemma isLeapYear_iff (year : Int) :
    isLeapYear year = true ↔ year % 4 = 0 ∧ (year % 100 ≠ 0 ∨ year % 400 = 0) := by
  simp [isLeapYear]

/-- The months of a year have 365 days together, or 366 in a leap year. -/
lemma daysBeforeMonth_thirteen (year : Int) :
    daysBeforeMonth year 13 = if isLeapYear year then 366 else 365 := by
  simp only [daysBeforeMonth, monthLength]
  split_ifs <;> rfl

/-- A year begins when the months of the one before it are over. -/
lemma yearStart_succ (year : Int) :
    yearStart (year + 1) = yearStart year + daysBeforeMonth year 13 := by
  rw [daysBeforeMonth_thirteen]
  have hleap := isLeapYear_iff year
  unfold yearStart
  dsimp only
  split_ifs with h
  · have hyear := hleap.mp h
    omega
  · have hyear := mt hleap.mpr h
    omega

/-- A day lies in its year. -/
lemma Date.yearOfDay_spec (n : Int) :
    yearStart (yearOfDay n) ≤ n ∧ n < yearStart (yearOfDay n + 1) := by
  -- the guess is off by at most one
  have hguess : yearStart (400 * (n + 719162) / 146097) ≤ n ∧
      n < yearStart (400 * (n + 719162) / 146097 + 3) := by
    unfold yearStart
    dsimp only
    omega
  unfold yearOfDay
  dsimp only
  split_ifs with hbefore hbehind
  · refine ⟨?_, ?_⟩
    · rw [Int.add_sub_cancel]
      exact hguess.1
    · rw [Int.sub_add_cancel]
      exact hbefore
  · refine ⟨hbehind, ?_⟩
    rw [Int.add_assoc, Int.add_assoc]
    exact hguess.2
  · omega

/-! ## Months -/

/-- The day on which a month begins, months counted through all years. -/
def monthStart (index : Int) : Int :=
  yearStart (index / 12) + daysBeforeMonth (index / 12) ((index % 12).toNat + 1)

/-- The number of days of a month, months counted through all years. -/
def lengthAt (index : Int) : Nat :=
  monthLength (index / 12) ((index % 12).toNat + 1)

/-- A month begins when the one before it is over. -/
lemma monthStart_succ (index : Int) : monthStart (index + 1) = monthStart index + lengthAt index := by
  have hlength := @daysBeforeMonth_succ (index / 12) ((index % 12).toNat + 1) (Nat.succ_pos _)
  unfold monthStart lengthAt
  by_cases hlast : index % 12 = 11
  · -- the next month is the first one of the next year
    have hyear : (index + 1) / 12 = index / 12 + 1 := by omega
    have hmonth : ((index + 1) % 12).toNat = 0 := by omega
    have htwelve : (index % 12).toNat = 11 := by omega
    rw [htwelve] at hlength ⊢
    rw [hyear, hmonth, yearStart_succ, hlength]
    show _ + (0 : Int) = _
    omega
  · have hyear : (index + 1) / 12 = index / 12 := by omega
    have hmonth : ((index + 1) % 12).toNat = (index % 12).toNat + 1 := by omega
    rw [hyear, hmonth]
    show _ + ((daysBeforeMonth _ ((index % 12).toNat + 1 + 1) : Nat) : Int) = _
    rw [hlength]
    omega

/-- However far months are counted, none is shorter than twenty-eight days. -/
lemma twentyEight_le_lengthAt (index : Int) : 28 ≤ lengthAt index :=
  twentyEight_le_monthLength _ _

/-- A number of months has 28 times as many days at least. -/
lemma monthStart_add_le (index : Int) (n : Nat) :
    monthStart index + 28 * n ≤ monthStart (index + n) := by
  induction n with
  | zero => simp
  | succ n ih =>
    have hlength := twentyEight_le_lengthAt (index + n)
    rw [Int.natCast_succ, ← Int.add_assoc, monthStart_succ]
    omega

lemma monthStart_mono {index later : Int} (h : index ≤ later) : monthStart index ≤ monthStart later := by
  have hmonths := monthStart_add_le index (later - index).toNat
  rw [show index + ((later - index).toNat : Int) = later by omega] at hmonths
  omega

/-- Later months begin when earlier ones are over. -/
lemma monthStart_add_lengthAt_le (index : Int) (n : Nat) :
    monthStart index + lengthAt index ≤ monthStart (index + (n + 1)) := by
  have hmonths := monthStart_add_le (index + 1) n
  rw [monthStart_succ] at hmonths
  rw [Int.add_comm (n : Int) 1, ← Int.add_assoc]
  omega

namespace Date

/-- The number of a valid date counts on from the first of its month. -/
lemma dayNumber_eq {d : Date} (h : d.Valid) :
    d.dayNumber = monthStart d.monthIndex + (d.day - 1) ∧
      monthLength d.year d.month = lengthAt d.monthIndex := by
  obtain ⟨hmonth, hmonth', -, -⟩ := h
  have hyear : d.monthIndex / 12 = d.year := by
    unfold monthIndex
    omega
  have hindex : (d.monthIndex % 12).toNat + 1 = d.month := by
    unfold monthIndex
    omega
  unfold dayNumber monthStart lengthAt
  rw [hyear, hindex]
  exact ⟨rfl, rfl⟩

/-- A date is given by its month and its day in it. -/
lemma ext_of_monthIndex {d e : Date} (hd : d.Valid) (he : e.Valid)
    (hindex : d.monthIndex = e.monthIndex) (hday : d.day = e.day) : d = e := by
  obtain ⟨hmonth, hmonth', -, -⟩ := hd
  obtain ⟨hmonth₂, hmonth₂', -, -⟩ := he
  unfold monthIndex at hindex
  obtain ⟨year, month, day⟩ := d
  obtain ⟨year', month', day'⟩ := e
  dsimp only at *
  obtain rfl : year = year' := by omega
  obtain rfl : month = month' := by omega
  rw [hday]

/-- A date in a later month is a later day. -/
lemma dayNumber_lt_of_monthIndex_lt {d e : Date} (hd : d.Valid) (he : e.Valid)
    (h : d.monthIndex < e.monthIndex) : d.dayNumber < e.dayNumber := by
  obtain ⟨hdday, hlength⟩ := dayNumber_eq hd
  have hlast : d.day ≤ lengthAt d.monthIndex := hlength ▸ hd.2.2.2
  have hfirst : 1 ≤ e.day := he.2.2.1
  -- the earlier month is over when the later one begins
  have hmonths := monthStart_add_lengthAt_le d.monthIndex (e.monthIndex - d.monthIndex - 1).toNat
  rw [show d.monthIndex + ((e.monthIndex - d.monthIndex - 1).toNat + 1) = e.monthIndex by omega]
    at hmonths
  rw [hdday, (dayNumber_eq he).1]
  omega

/-- Dates on the same day are the same. -/
lemma dayNumber_inj {d e : Date} (hd : d.Valid) (he : e.Valid) (h : d.dayNumber = e.dayNumber) :
    d = e := by
  have hindex : d.monthIndex = e.monthIndex := by
    rcases Int.lt_trichotomy d.monthIndex e.monthIndex with hlt | heq | hlt
    · exact absurd h (Int.ne_of_lt (dayNumber_lt_of_monthIndex_lt hd he hlt))
    · exact heq
    · exact absurd h (Int.ne_of_gt (dayNumber_lt_of_monthIndex_lt he hd hlt))
  refine ext_of_monthIndex hd he hindex ?_
  rw [(dayNumber_eq hd).1, (dayNumber_eq he).1, hindex] at h
  omega

/-! ## Some months later or earlier -/

/-- Adding months moves the number of the month by as many. -/
lemma monthIndex_plusMonths (d : Date) (count : Int) :
    (d.plusMonths count).monthIndex = d.monthIndex + count := by
  have hindex : (d.plusMonths count).monthIndex = 12 * ((d.monthIndex + count) / 12) +
      ((((d.monthIndex + count) % 12).toNat + 1 : Nat) - 1 : Int) := rfl
  rw [hindex]
  omega

lemma day_plusMonths (d : Date) (count : Int) :
    (d.plusMonths count).day = min d.day (lengthAt (d.monthIndex + count)) := rfl

/-- Adding months leads to a day that the calendar has. -/
lemma valid_plusMonths {d : Date} (h : d.Valid) (count : Int) : (d.plusMonths count).Valid := by
  have hlong := twentyEight_le_lengthAt (d.monthIndex + count)
  have hfirst := h.2.2.1
  refine ⟨Nat.succ_pos _, ?_, ?_, Nat.min_le_right _ _⟩
  · show ((d.monthIndex + count) % 12).toNat + 1 ≤ 12
    omega
  · rw [day_plusMonths]
    omega

lemma plusMonths_zero {d : Date} (h : d.Valid) : d.plusMonths 0 = d := by
  have hlast : d.day ≤ lengthAt d.monthIndex := (dayNumber_eq h).2 ▸ h.2.2.2
  refine ext_of_monthIndex (valid_plusMonths h 0) h ?_ ?_
  · rw [monthIndex_plusMonths, Int.add_zero]
  · rw [day_plusMonths, Int.add_zero]
    exact Nat.min_eq_left hlast

/-- A date some months later is a later day. -/
lemma dayNumber_lt_plusMonths {d : Date} (h : d.Valid) {count : Nat} (hcount : 0 < count) :
    d.dayNumber < (d.plusMonths count).dayNumber := by
  refine dayNumber_lt_of_monthIndex_lt h (valid_plusMonths h count) ?_
  rw [monthIndex_plusMonths]
  omega

lemma dayNumber_le_plusMonths {d : Date} (h : d.Valid) (months : Nat) :
    d.dayNumber ≤ (d.plusMonths months).dayNumber := by
  rcases Nat.eq_zero_or_pos months with rfl | hpos
  · exact Int.le_of_eq (congrArg dayNumber (plusMonths_zero h).symm)
  · exact Int.le_of_lt (dayNumber_lt_plusMonths h hpos)

/-- Each of the months is 28 days long at least; the day may be cut from a 31st. -/
lemma dayNumber_add_le_plusMonths {d : Date} (h : d.Valid) (count : Nat) :
    d.dayNumber + 28 * count ≤ (d.plusMonths count).dayNumber + 30 := by
  have hmonths := monthStart_add_le d.monthIndex count
  have hlong := monthLength_le d.year d.month
  obtain ⟨-, -, hfirst, -⟩ := valid_plusMonths h count
  rw [(dayNumber_eq h).1, (dayNumber_eq (valid_plusMonths h count)).1, monthIndex_plusMonths]
  have hlast := h.2.2.2
  omega

/-- The same holds of each month on the way back. -/
lemma plusMonths_neg_add_le_dayNumber {d : Date} (h : d.Valid) (count : Nat) :
    (d.plusMonths (-count)).dayNumber + 28 * count ≤ d.dayNumber + 30 := by
  have hvalid := valid_plusMonths h (-count)
  have hmonths := monthStart_add_le (d.plusMonths (-count)).monthIndex count
  have hlong := monthLength_le (d.plusMonths (-count)).year (d.plusMonths (-count)).month
  have hlast := hvalid.2.2.2
  have hfirst := h.2.2.1
  rw [monthIndex_plusMonths, Int.neg_add_cancel_right] at hmonths
  rw [(dayNumber_eq h).1, (dayNumber_eq hvalid).1, monthIndex_plusMonths]
  omega

/-- A date some months earlier is an earlier day. -/
lemma plusMonths_neg_lt_dayNumber {d : Date} (h : d.Valid) {count : Nat} (hcount : 0 < count) :
    (d.plusMonths (-count)).dayNumber < d.dayNumber := by
  refine dayNumber_lt_of_monthIndex_lt (valid_plusMonths h _) h ?_
  rw [monthIndex_plusMonths]
  omega

/-! ## Days as dates -/

/-- The month and the day that a number of days is split into. -/
lemma splitMonths_spec (year : Int) (k : Nat) {month rest : Nat} (hmonth : 1 ≤ month)
    (hk : month + k = 12)
    (hrest : daysBeforeMonth year month + rest < daysBeforeMonth year 13) :
    (⟨year, (splitMonths year k month rest).1, (splitMonths year k month rest).2⟩ : Date).Valid ∧
      daysBeforeMonth year (splitMonths year k month rest).1 + (splitMonths year k month rest).2 =
        daysBeforeMonth year month + rest + 1 := by
  have hnext := daysBeforeMonth_succ year hmonth
  induction k generalizing month rest with
  | zero =>
    -- the last month takes what is left
    obtain rfl : month = 12 := hk
    rw [hnext] at hrest
    have hlast : rest < monthLength year 12 := by omega
    exact ⟨⟨hmonth, Nat.le_refl 12, Nat.succ_pos rest, hlast⟩, rfl⟩
  | succ k ih =>
    unfold splitMonths
    split_ifs with hthis
    · have htwelve : month ≤ 12 := by omega
      exact ⟨⟨hmonth, htwelve, Nat.succ_pos rest, hthis⟩, rfl⟩
    · have hbehind : daysBeforeMonth year (month + 1) + (rest - monthLength year month) =
          daysBeforeMonth year month + rest := by omega
      rw [← hbehind]
      refine ih (by omega) (by omega) (by omega) ?_
      exact daysBeforeMonth_succ year (by omega)

/-- Every number of a day is that of a valid date, and this is the one that is found. -/
lemma ofDayNumber_spec (n : Int) : (ofDayNumber n).Valid ∧ (ofDayNumber n).dayNumber = n := by
  obtain ⟨hstart, hend⟩ := yearOfDay_spec n
  rw [yearStart_succ] at hend
  have hrest : daysBeforeMonth (yearOfDay n) 1 + (n - yearStart (yearOfDay n)).toNat <
      daysBeforeMonth (yearOfDay n) 13 := by
    show 0 + _ < _
    omega
  obtain ⟨hvalid, hdays⟩ := splitMonths_spec (yearOfDay n) 11 (Nat.le_refl 1) rfl hrest
  refine ⟨hvalid, ?_⟩
  have hone : daysBeforeMonth (yearOfDay n) 1 = 0 := rfl
  have hday : (ofDayNumber n).dayNumber = yearStart (yearOfDay n) +
      daysBeforeMonth (yearOfDay n) (splitMonths (yearOfDay n) 11 1
        (n - yearStart (yearOfDay n)).toNat).1 +
      (((splitMonths (yearOfDay n) 11 1 (n - yearStart (yearOfDay n)).toNat).2 : Int) - 1) := rfl
  rw [hday]
  omega

/-- The date of a day exists. -/
lemma valid_ofDayNumber (n : Int) : (ofDayNumber n).Valid := (ofDayNumber_spec n).1

/-- The day of the date of a day is that day. -/
lemma dayNumber_ofDayNumber (n : Int) : (ofDayNumber n).dayNumber = n := (ofDayNumber_spec n).2

/-- The date of the day of a date is that date. -/
lemma ofDayNumber_dayNumber {d : Date} (h : d.Valid) : ofDayNumber d.dayNumber = d :=
  dayNumber_inj (valid_ofDayNumber _) h (dayNumber_ofDayNumber _)

end Date

end TaskSeries.Calendar
