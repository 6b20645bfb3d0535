/-!
The proleptic Gregorian calendar: dates, and days counted from 1970-01-01, which is day 0. Years are
whole numbers, year 0 being the one before year 1.
-/

namespace TaskSeries.Calendar

/-- A year of 366 days. -/
def isLeapYear (year : Int) : Bool :=
  year % 4 == 0 && (year % 100 != 0 || year % 400 == 0)

/-- The number of days of a month, months counted from 1. -/
def monthLength (year : Int) (month : Nat) : Nat :=
  match month with
  | 2 => if isLeapYear year then 29 else 28
  | 4 | 6 | 9 | 11 => 30
  | _ => 31

/-- The day on which a year begins. -/
def yearStart (year : Int) : Int :=
  let y := year - 1
  365 * y + y / 4 - y / 100 + y / 400 - 719162

/-- The days of a year before its month number `month`. -/
def daysBeforeMonth (year : Int) : Nat → Nat
  | 0 => 0
  | 1 => 0
  | m + 1 => daysBeforeMonth year m + monthLength year m

/-- A date of the calendar. -/
structure Date where
  year : Int
  month : Nat
  day : Nat
deriving DecidableEq, Repr

namespace Date

/-- The date exists: its month is one of the year's twelve and its day one of the month's. -/
def Valid (d : Date) : Prop :=
  1 ≤ d.month ∧ d.month ≤ 12 ∧ 1 ≤ d.day ∧ d.day ≤ monthLength d.year d.month

instance (d : Date) : Decidable d.Valid :=
  inferInstanceAs (Decidable (_ ∧ _ ∧ _ ∧ _))

/-- The days from 1970-01-01 to a date. -/
def dayNumber (d : Date) : Int :=
  yearStart d.year + daysBeforeMonth d.year d.month + ((d.day : Int) - 1)

/-- The year of a day: the quotient by the mean length of a year is off by at most one. -/
def yearOfDay (n : Int) : Int :=
  let guess := 400 * (n + 719162) / 146097 + 1
  if n < yearStart guess then guess - 1
  else if yearStart (guess + 1) ≤ n then guess + 1
  else guess

/-- The month and the day in it, for the day `rest` days behind the beginning of month `month`. The
first argument bounds the months still to come. -/
def splitMonths (year : Int) : Nat → Nat → Nat → Nat × Nat
  | 0, month, rest => (month, rest + 1)
  | k + 1, month, rest =>
    if rest < monthLength year month then (month, rest + 1)
    else splitMonths year k (month + 1) (rest - monthLength year month)

/-- The date of a day. -/
def ofDayNumber (n : Int) : Date :=
  let year := yearOfDay n
  let (month, day) := splitMonths year 11 1 (n - yearStart year).toNat
  ⟨year, month, day⟩

/-- Months counted through all years: twelve times the year, plus the months before. -/
def monthIndex (d : Date) : Int :=
  12 * d.year + ((d.month : Int) - 1)

/-- The date `count` months later, or earlier when `count` is negative: the day stays, or becomes the
last day of a month too short for it. -/
def plusMonths (d : Date) (count : Int) : Date :=
  let index := d.monthIndex + count
  let year := index / 12
  let month := (index % 12).toNat + 1
  ⟨year, month, min d.day (monthLength year month)⟩

end Date

/-- The days of the week, from Monday to Sunday. -/
inductive Weekday
  | monday | tuesday | wednesday | thursday | friday | saturday | sunday
deriving DecidableEq, Repr

namespace Weekday

/-- The days since Monday. -/
def index : Weekday → Nat
  | monday => 0
  | tuesday => 1
  | wednesday => 2
  | thursday => 3
  | friday => 4
  | saturday => 5
  | sunday => 6

/-- The weekday with a given number of days since Monday, taken modulo seven. -/
def ofIndex (n : Nat) : Weekday :=
  match n % 7 with
  | 0 => monday
  | 1 => tuesday
  | 2 => wednesday
  | 3 => thursday
  | 4 => friday
  | 5 => saturday
  | _ => sunday

/-- The weekday of a day; 1970-01-01 was a Thursday. -/
def ofDayNumber (n : Int) : Weekday :=
  ofIndex ((n + 3) % 7).toNat

/-- The weekday with a given name or three-letter abbreviation, in lower case. -/
def ofName? (name : String) : Option Weekday :=
  match name with
  | "monday" | "mon" => some monday
  | "tuesday" | "tue" => some tuesday
  | "wednesday" | "wed" => some wednesday
  | "thursday" | "thu" => some thursday
  | "friday" | "fri" => some friday
  | "saturday" | "sat" => some saturday
  | "sunday" | "sun" => some sunday
  | _ => none

/-- Saturday and Sunday. -/
def isWeekend : Weekday → Bool
  | saturday | sunday => true
  | _ => false

/-- The days from a Saturday or Sunday to the Monday that follows; nothing from Monday to Friday. -/
def daysToWorkday : Weekday → Nat
  | saturday => 2
  | sunday => 1
  | _ => 0

/-- On a weekend, the Monday that follows is a day nearer on the next day. -/
theorem daysToWorkday_succ {n : Int} (h : (ofDayNumber n).isWeekend = true) :
    (ofDayNumber (n + 1)).daysToWorkday + 1 = (ofDayNumber n).daysToWorkday := by
  have hcases : (n + 3) % 7 = 5 ∧ (n + 1 + 3) % 7 = 6 ∨ (n + 3) % 7 = 6 ∧ (n + 1 + 3) % 7 = 0 ∨
      (n + 3) % 7 = 0 ∨ (n + 3) % 7 = 1 ∨ (n + 3) % 7 = 2 ∨ (n + 3) % 7 = 3 ∨ (n + 3) % 7 = 4 := by
    omega
  unfold ofDayNumber at *
  rcases hcases with ⟨hday, hnext⟩ | ⟨hday, hnext⟩ | hday | hday | hday | hday | hday
  · rw [hday, hnext]
    rfl
  · rw [hday, hnext]
    rfl
  all_goals
    rw [hday] at h
    exact absurd h (by decide)

end Weekday

end TaskSeries.Calendar
