import TaskSeries.Proofs.Listing.Order
import TaskSeries.Proofs.Period.Forward
import TaskSeries.Proofs.Period.RoundTrip
import TaskSeries.Proofs.Period.Weekends

/-!
# Nominal lengths

The nominal length of a period takes a month for 30 days and a year for 365, and knows no weekends. How far
the period really leads depends on where it begins, but only within bounds: some months in a row have as
many days as they have in a common year at least, and as in a leap year at most, also where the day of the
month is cut off, and a weekend adds two days at most (`Period.advance_mem_span`). For the periods that have
names these bounds do not overlap unless the nominal lengths are the same, so that the nominal order is the
order in which they recur (`Period.advance_lt_of_nominal_lt`).
-/

namespace TaskSeries

open TaskSeries.Calendar

/-- The least and the most that a number can be. -/
structure Span where
  least : Int
  most : Int

instance : Membership Int Span :=
  ⟨fun span n => span.least ≤ n ∧ n ≤ span.most⟩

/-! ## Days of months -/

namespace Calendar

/-- No month is shorter than in a common year. -/
lemma commonLength_le (year : Int) (month : Nat) : monthLength 1 month ≤ monthLength year month := by
  unfold monthLength
  split
  · show 28 ≤ if isLeapYear year then 29 else 28
    split_ifs <;> decide
  all_goals exact Nat.le_refl _

/-- No month is longer than in a leap year. -/
lemma le_leapLength (year : Int) (month : Nat) : monthLength year month ≤ monthLength 4 month := by
  unfold monthLength
  split
  · show (if isLeapYear year then 29 else 28) ≤ 29
    split_ifs <;> decide
  all_goals exact Nat.le_refl _

/-- The days of `count` months in a row when each of them is as long as in the given year. Months are
counted from 0, and the first of them is `month`. -/
def daysOfMonths (year : Int) (count month : Nat) : Nat :=
  ((List.range count).map fun n => monthLength year ((month + n) % 12 + 1)).sum

/-- The days that a number of months in a row can have; year 1 is a common year, and year 4 a leap year. -/
def monthSpan (count : Nat) : Span where
  least := (((List.range 12).map (daysOfMonths 1 count)).min?.getD 0 : Nat)
  most := (((List.range 12).map (daysOfMonths 4 count)).max?.getD 0 : Nat)

lemma monthStart_add_bounds (index : Int) (count : Nat) :
    monthStart index + daysOfMonths 1 count (index % 12).toNat ≤ monthStart (index + count) ∧
      monthStart (index + count) ≤ monthStart index + daysOfMonths 4 count (index % 12).toNat := by
  unfold daysOfMonths
  induction count with
  | zero => simp
  | succ count ih =>
    -- the month that comes last is between its lengths in the two years
    have hmonth : ((index + count) % 12).toNat = ((index % 12).toNat + count) % 12 := by omega
    have hlength : lengthAt (index + count) =
        monthLength ((index + count) / 12) (((index % 12).toNat + count) % 12 + 1) := by
      rw [← hmonth]
      rfl
    have hshort := commonLength_le ((index + count) / 12) (((index % 12).toNat + count) % 12 + 1)
    have hlong := le_leapLength ((index + count) / 12) (((index % 12).toNat + count) % 12 + 1)
    rw [Int.natCast_succ, ← Int.add_assoc, monthStart_succ, hlength]
    simp only [List.range_succ, List.map_append, List.sum_append, List.map_singleton,
      List.sum_singleton]
    omega

/-- From the beginning of a month to that of another one. -/
lemma monthStart_sub_mem_monthSpan (index : Int) (count : Nat) :
    monthStart (index + count) - monthStart index ∈ monthSpan count := by
  obtain ⟨hleast, hmost⟩ := monthStart_add_bounds index count
  have hmonth : (index % 12).toNat ∈ List.range 12 := List.mem_range.mpr (by omega)
  have hfewest := List.min?_getD_le_of_mem (k := 0) (List.mem_map_of_mem (f := daysOfMonths 1 count) hmonth)
  have hmany := List.le_max?_getD_of_mem (k := 0) (List.mem_map_of_mem (f := daysOfMonths 4 count) hmonth)
  constructor
  · show (((List.range 12).map (daysOfMonths 1 count)).min?.getD 0 : Int) ≤ _
    omega
  · show _ ≤ (((List.range 12).map (daysOfMonths 4 count)).max?.getD 0 : Int)
    omega

/-- A date some months later is as many days later as the months have from the first of the month on, or
from the first of the next month. Where the day is cut off, it is in between. -/
lemma Date.plusMonths_sub_mem_monthSpan {d : Date} (h : d.Valid) (count : Nat) :
    (d.plusMonths count).dayNumber - d.dayNumber ∈ monthSpan count := by
  have hlast : d.day ≤ lengthAt d.monthIndex := (dayNumber_eq h).2 ▸ h.2.2.2
  obtain ⟨hleast, hmost⟩ := monthStart_sub_mem_monthSpan d.monthIndex count
  obtain ⟨hleast', -⟩ := monthStart_sub_mem_monthSpan (d.monthIndex + 1) count
  have hnext : d.monthIndex + 1 + count = d.monthIndex + count + 1 := by omega
  rw [hnext, monthStart_succ, monthStart_succ] at hleast'
  rw [(dayNumber_eq h).1, (dayNumber_eq (valid_plusMonths h count)).1, monthIndex_plusMonths,
    day_plusMonths]
  constructor <;> omega

end Calendar

/-! ## Seconds of periods -/

/-- The days that a number of units can have. -/
def CalendarUnit.span (step : Nat) : CalendarUnit → Span
  | day => ⟨step, step⟩
  | week => ⟨(7 * step : Nat), (7 * step : Nat)⟩
  | month => monthSpan step
  | year => monthSpan (12 * step)

/-- The days of the units are within the span. -/
lemma Calendar.Instant.addUnits_mem_span {i j : Instant} {unit : CalendarUnit} {step : Nat}
    (h : i.addUnits unit step = some j) : SameTime i j ∧ j.day - i.day ∈ unit.span step := by
  have hdays : ∀ days : Nat, i.plusDays days = some j →
      SameTime i j ∧ j.day - i.day ∈ (⟨days, days⟩ : Span) := by
    intro days hj
    rw [day_of_plusDays hj, Int.add_comm, Int.add_sub_cancel]
    exact ⟨sameTime_plusDays hj, Int.le_refl _, Int.le_refl _⟩
  have hmonths : ∀ months : Nat, i.plusMonths months = some j →
      SameTime i j ∧ j.day - i.day ∈ monthSpan months := by
    intro months hj
    obtain ⟨htime, hdate⟩ := plusMonths_eq_some_iff.mp hj
    rw [← dayNumber_date j, ← dayNumber_date i, hdate]
    exact ⟨htime, Date.plusMonths_sub_mem_monthSpan i.valid_date months⟩
  cases unit with
  | day =>
    rw [addUnits_eq_plusDays rfl, Nat.one_mul] at h
    exact hdays step h
  | week =>
    rw [addUnits_eq_plusDays rfl] at h
    exact hdays (7 * step) h
  | month =>
    rw [addUnits_eq_plusMonths rfl, Nat.one_mul] at h
    exact hmonths step h
  | year =>
    rw [addUnits_eq_plusMonths rfl] at h
    exact hmonths (12 * step) h

namespace Period

variable {p q : Period} {r x y : Instant}

/-- The seconds by which a period can lead on. A weekend adds two days at most. -/
def span : Period → Span
  | exact seconds => ⟨seconds, seconds⟩
  | calendar unit step skipWeekends =>
    ⟨86400 * (unit.span step).least,
      86400 * ((unit.span step).most + if skipWeekends then 2 else 0)⟩

/-- A period leads on by seconds within its span. -/
lemma advance_mem_span (hp : p.IsForward) (h : p.advance r = some x) :
    x.second - r.second ∈ p.span := by
  cases p with
  | exact seconds =>
    rw [Instant.second_of_plusSeconds h hp, Int.add_comm, Int.add_sub_cancel]
    exact ⟨Int.le_refl _, Int.le_refl _⟩
  | calendar unit step skipWeekends =>
    obtain ⟨next, hnext, hx⟩ := Option.bind_eq_some_iff.mp h
    obtain ⟨htime, hleast, hmost⟩ := Instant.addUnits_mem_span hnext
    -- the days over the weekend, if it is skipped
    obtain ⟨days, hdays, hxday, hxtime⟩ : ∃ days : Nat, days ≤ (if skipWeekends then 2 else 0) ∧
        x.day = next.day + days ∧ Instant.SameTime next x := by
      cases skipWeekends with
      | false =>
        obtain rfl : next = x := Option.some.inj hx
        exact ⟨0, Nat.le_refl 0, (Int.add_zero _).symm, .refl next⟩
      | true =>
        have hskip : next.skipWeekend = some x := hx
        rw [Instant.skipWeekend_eq] at hskip
        exact ⟨_, (Weekday.daysToWorkday_spec next.day).1, Instant.day_of_plusDays hskip,
          Instant.sameTime_plusDays hskip⟩
    have hsecond := (htime.trans hxtime).1
    rw [Instant.second_eq x, Instant.second_eq r, hsecond]
    constructor
    · show 86400 * (unit.span step).least ≤ _
      omega
    · show _ ≤ 86400 * ((unit.span step).most + if skipWeekends then 2 else 0)
      split_ifs at hdays ⊢ <;> omega

/-! ## Periods with names -/

/-- The period has a name. -/
def IsNamed (p : Period) : Prop :=
  ∃ name, ofName? name = some p

/-- The period is a number of seconds. -/
def IsExact (p : Period) : Prop :=
  ∃ seconds, p = exact seconds

/-- The periods are of one kind: exact ones, or ones with names. -/
def SameKind (p q : Period) : Prop :=
  p.IsExact ∧ q.IsExact ∨ p.IsNamed ∧ q.IsNamed

/-- The periods with names are the calendar periods among them and the hour. -/
lemma mem_of_isNamed (h : p.IsNamed) : p ∈ exact 3600 :: named := by
  obtain ⟨name, hname⟩ := h
  unfold ofName? at hname
  split at hname
  all_goals cases hname
  all_goals decide

/-- What is nominally shorter among the periods with names is shorter in every case. -/
lemma most_lt_least_of_named : ∀ p ∈ exact 3600 :: named, ∀ q ∈ exact 3600 :: named,
    p.nominalSeconds < q.nominalSeconds → p.span.most < q.span.least := by
  decide +kernel

/-- What is nominally shorter is shorter in every case. -/
lemma most_lt_least (hkind : SameKind p q) (h : p.nominalSeconds < q.nominalSeconds) :
    p.span.most < q.span.least := by
  rcases hkind with ⟨⟨seconds, rfl⟩, ⟨seconds', rfl⟩⟩ | ⟨hp, hq⟩
  · exact h
  · exact most_lt_least_of_named p (mem_of_isNamed hp) q (mem_of_isNamed hq) h

/-- Of two tasks with periods of different nominal lengths, the one with the smaller length stands first
when tasks are sorted by period. -/
lemma pair_sublist_sort_recur {tasks : List Task} {a b : Task} (ha : a ∈ tasks) (hb : b ∈ tasks)
    (hp : a.recur = some p) (hq : b.recur = some q) (h : p.nominalSeconds < q.nominalSeconds) :
    [a, b].Sublist (Listing.sort ⟨.recur, false⟩ tasks) := by
  have hcompare : Listing.comparePrimary ⟨.recur, false⟩ a b = .lt := by
    show Listing.comparePresent compare false (a.recur.map nominalSeconds)
      (b.recur.map nominalSeconds) = .lt
    rw [hp, hq]
    exact Int.compare_eq_lt.mpr h
  have hlt : Listing.compareTasks ⟨.recur, false⟩ a b = .lt := by
    unfold Listing.compareTasks
    rw [hcompare]
    rfl
  have hperm := Listing.sort_perm ⟨.recur, false⟩ tasks
  refine (Listing.pair_sublist_iff (Listing.pairwise_sort _ tasks) (hperm.mem_iff.mpr ha)
    (hperm.mem_iff.mpr hb) fun halike => ?_).mpr hlt
  rw [Listing.compareTasks_eq_iff.mpr halike] at hlt
  exact absurd hlt nofun

/-- The nominal order is the real one, for exact periods among each other and for periods with names. From
every instant, the period of the smaller nominal length leads to the earlier instant, whatever months, leap
days and weekends there are on the way. So, when tasks are sorted by period, the one that recurs sooner
stands in front. -/
theorem advance_lt_of_nominal_lt {token token' : String} (hp : parse token = .ok p)
    (hq : parse token' = .ok q) (hkind : SameKind p q) (h : p.nominalSeconds < q.nominalSeconds) :
    (∀ r x y, p.advance r = some x → q.advance r = some y → x < y) ∧
      ∀ tasks, ∀ a ∈ tasks, ∀ b ∈ tasks, a.recur = some p → b.recur = some q →
        [a, b].Sublist (Listing.sort ⟨.recur, false⟩ tasks) := by
  refine ⟨fun r x y hx hy => ?_, fun tasks a ha b hb hap hbq => pair_sublist_sort_recur ha hb hap hbq h⟩
  have hsooner := (advance_mem_span (isForward_of_parse hp) hx).2
  have hlater := (advance_mem_span (isForward_of_parse hq) hy).1
  have happart := most_lt_least hkind h
  left
  omega

/-- From the last of January a month leads to the end of February and two months to the end of March. -/
theorem advance_lt_of_nominal_lt_endOfJanuary :
    let january : Instant := ⟨2592000, 0, by decide⟩
    let february : Instant := ⟨5011200, 0, by decide⟩
    let march : Instant := ⟨7689600, 0, by decide⟩
    parse "Monthly" = .ok (calendar .month 1 false) ∧
      parse " bimonthly " = .ok (calendar .month 2 false) ∧
      SameKind (calendar .month 1 false) (calendar .month 2 false) ∧
      (calendar .month 1 false).nominalSeconds < (calendar .month 2 false).nominalSeconds ∧
      (calendar .month 1 false).advance january = some february ∧
      (calendar .month 2 false).advance january = some march ∧ february < march := by
  intro january february march
  have hmonth : parse "Monthly" = .ok (calendar .month 1 false) := by rfl
  have hmonths : parse " bimonthly " = .ok (calendar .month 2 false) := by rfl
  have hkind : SameKind (calendar .month 1 false) (calendar .month 2 false) :=
    .inr ⟨⟨"monthly", rfl⟩, ⟨"bimonthly", rfl⟩⟩
  have hfebruary : (calendar .month 1 false).advance january = some february := by decide
  have hmarch : (calendar .month 2 false).advance january = some march := by decide
  exact ⟨hmonth, hmonths, hkind, by decide, hfebruary, hmarch,
    (advance_lt_of_nominal_lt hmonth hmonths hkind (by decide)).1 january february march hfebruary hmarch⟩

end Period

end TaskSeries
