import Mathlib.Logic.ExistsUnique
import TaskSeries.Proofs.DateExpr
import TaskSeries.Proofs.Period.Weekends

/-!
# Weekdays by name

Any seven days in a row have each weekday once, so that a weekday that is named stands for one day of
the seven behind the current one (`Calendar.Weekday.next_iff`). An expression that is the name of a weekday
resolves to the midnight of that day, whatever the time is, and fails only at the end of the range
(`DateExpr.resolve_weekday`).
-/

namespace TaskSeries

open TaskSeries.Text TaskSeries.Calendar

namespace Calendar

/-! ## The days of a week -/

namespace Weekday

/-- The names of a weekday: the full one, and its first three letters. -/
def names : Weekday → List String
  | monday => ["monday", "mon"]
  | tuesday => ["tuesday", "tue"]
  | wednesday => ["wednesday", "wed"]
  | thursday => ["thursday", "thu"]
  | friday => ["friday", "fri"]
  | saturday => ["saturday", "sat"]
  | sunday => ["sunday", "sun"]

lemma index_lt (w : Weekday) : w.index < 7 := by
  cases w <;> decide

/-- The weekdays follow one another every seven days, the day of number 0 being a Thursday. -/
lemma ofDayNumber_eq_iff {day : Int} {w : Weekday} : ofDayNumber day = w ↔ (day + 3) % 7 = w.index := by
  rcases ofDayNumber_cases day with h | h | h | h | h | h | h <;> rw [h.1, h.2] <;> cases w <;> decide

lemma index_ofDayNumber (day : Int) : ((ofDayNumber day).index : Int) = (day + 3) % 7 :=
  (ofDayNumber_eq_iff.mp rfl).symm

/-- Of the seven days behind a day, one has a given weekday: the one that is counted on to. -/
lemma next_iff {day later : Int} {w : Weekday} :
    day < later ∧ later ≤ day + 7 ∧ ofDayNumber later = w ↔
      later = day + DateExpr.daysAhead (ofDayNumber day) w := by
  have htoday := index_ofDayNumber day
  have hlt := w.index_lt
  rw [ofDayNumber_eq_iff]
  unfold DateExpr.daysAhead
  dsimp only
  split_ifs with hsame
  all_goals omega

end Weekday

/-! ## Midnight -/

/-- The midnight of a day is the instant on it with no time gone by. -/
lemma Instant.midnight?_eq_some_iff {i : Instant} {day : Int} :
    midnight? day = some i ↔ i.day = day ∧ i.secondOfDay = 0 ∧ i.nano = 0 := by
  unfold midnight? Instant.day secondOfDay
  rw [of?_eq_some_iff]
  omega

/-- The midnights that are out of range behind an instant are behind the last second. -/
lemma Instant.lastSecond_lt_of_midnight? {i : Instant} {day : Int} (hday : i.day < day)
    (h : midnight? day = none) : lastSecond < 86400 * day := by
  by_contra hlast
  obtain ⟨hfirst, -, -⟩ := i.representable
  have hbegin : firstSecond ≤ 86400 * day := by
    unfold Instant.day at hday
    omega
  have hrange : Representable (86400 * day) 0 := ⟨hbegin, Int.not_lt.mp hlast, Or.inl (by decide)⟩
  unfold midnight? of? at h
  rw [dif_pos hrange] at h
  exact absurd h nofun

end Calendar

namespace DateExpr

variable {w : Weekday} {expr : String}

/-! ## The name of a weekday -/

/-- The name of a weekday stands for the midnight of the next such day. -/
lemma wordDay?_of_name {word : String} (h : word ∈ w.names) (now : Instant) :
    wordDay? word now = some (Instant.midnight? (now.day + daysAhead now.weekday w)) := by
  cases w
  all_goals
    rcases List.mem_pair.mp h with rfl | rfl <;> rfl

/-- A text without signs has no offset. -/
lemma splitOffset_eq_none {cs : List Char} (h : signs cs = 0) : splitOffset cs = none := by
  have hnone : ∀ c ∈ cs.reverse, (!isSign c) = true := by
    intro c hc
    rw [signs_eq_zero_iff.mp h c (List.mem_reverse.mp hc)]
    rfl
  have hsplit : splitLast (fun c => c == '+' || c == '-') cs = none := by
    unfold splitLast
    rw [show cs.reverse.dropWhile (fun c => !(c == '+' || c == '-')) = [] from
      List.dropWhile_eq_nil_iff.mpr hnone]
  unfold splitOffset
  rw [hsplit]

/-- An expression that is the name of a weekday resolves to a midnight if there is one. -/
lemma resolve_eq_of_name (h : keyword expr ∈ w.names) (now : Instant) :
    resolve expr now = (Instant.midnight? (now.day + daysAhead now.weekday w)).elim
      (.error (.invalidDate (trim expr))) .ok := by
  have hword := wordDay?_of_name h now
  have hbase : resolveBase (trimChars expr.toList) now =
      Instant.midnight? (now.day + daysAhead now.weekday w) := by
    unfold resolveBase
    rw [trimChars_trimChars]
    show (wordDay? (keyword expr) now).getD _ = _
    rw [hword]
    rfl
  have hsigns : signs (trimChars expr.toList) = 0 := by
    have hnone := signs_of_wordDay? hword
    unfold keyword at hnone
    rwa [String.toList_ofList, signs_lowerAscii] at hnone
  unfold resolve resolveTrimmed
  dsimp only
  rw [hbase, splitOffset_eq_none hsigns]
  cases Instant.midnight? (now.day + daysAhead now.weekday w) <;> rfl

lemma elim_eq_ok_iff {α ε : Type} {o : Option α} {e : ε} {a : α} :
    o.elim (Except.error e) Except.ok = .ok a ↔ o = some a := by
  cases o <;> simp

/-- The name of a weekday, in full or shortened and in any letter case, stands for the one midnight that
is on this weekday, after the current day and within seven days of it, whatever the time of day is.
It is refused only where that midnight lies behind the end of the range. The current weekday is never
further from Monday than a week and the named one together, so that the difference is a natural number. -/
theorem resolve_weekday (h : keyword expr ∈ w.names) (now : Instant) :
    (∃! day : Int, now.day < day ∧ day ≤ now.day + 7 ∧ Weekday.ofDayNumber day = w) ∧
    (∀ x : Instant, resolve expr now = .ok x ↔
      (x.secondOfDay = 0 ∧ x.nano = 0) ∧ now.day < x.day ∧ x.day ≤ now.day + 7 ∧ x.weekday = w) ∧
    (∀ fault, resolve expr now = .error fault →
      fault = .invalidDate (trim expr) ∧ lastSecond < 86400 * (now.day + 7)) ∧
    (∀ other : Instant, other.day = now.day → resolve expr other = resolve expr now) ∧
    now.weekday.index ≤ 7 + w.index := by
  have hresolve := resolve_eq_of_name h now
  refine ⟨⟨_, Weekday.next_iff.mpr rfl, fun day => Weekday.next_iff.mp⟩, fun x => ?_,
    fun fault hfault => ?_, fun other hday => ?_, ?_⟩
  · rw [hresolve, elim_eq_ok_iff, Instant.midnight?_eq_some_iff, and_comm]
    exact and_congr_right fun _ => Weekday.next_iff.symm
  · obtain ⟨hlater, hle, -⟩ := Weekday.next_iff.mpr (rfl : _ = now.day + daysAhead now.weekday w)
    rw [hresolve] at hfault
    cases hmidnight : Instant.midnight? (now.day + daysAhead now.weekday w) with
    | some i =>
      rw [hmidnight] at hfault
      exact absurd hfault nofun
    | none =>
      rw [hmidnight] at hfault
      have hbehind := Instant.lastSecond_lt_of_midnight? hlater hmidnight
      refine ⟨(Except.error.inj hfault).symm, ?_⟩
      omega
  · unfold Instant.weekday at hresolve
    have hother := resolve_eq_of_name h other
    unfold Instant.weekday at hother
    rw [hother, hday, hresolve]
  · have hlt := now.weekday.index_lt
    omega

/-- On a Friday the name of that day is a week ahead, also within a leap second before midnight. -/
theorem resolve_weekday_fridayOnFriday :
    let now : Instant := ⟨172799, 1500000000, by decide⟩
    let morning : Instant := ⟨115200, 0, by decide⟩
    let next : Instant := ⟨691200, 0, by decide⟩
    keyword " FriDay " ∈ Weekday.friday.names ∧ now.weekday = .friday ∧ next.weekday = .friday ∧
      next.day = now.day + 7 ∧ resolve " FriDay " now = .ok next ∧ morning.day = now.day ∧
      resolve " FriDay " morning = .ok next := by
  intro now morning next
  have hname : keyword " FriDay " ∈ Weekday.friday.names := by decide +kernel
  obtain ⟨-, hnext, -, hsame, -⟩ := resolve_weekday hname now
  have hresolve := (hnext next).mpr ⟨by decide, by decide, by decide, by decide⟩
  have hmorning := (hsame morning (by decide)).trans hresolve
  exact ⟨hname, by decide, by decide, by decide, hresolve, by decide, hmorning⟩

end DateExpr

end TaskSeries
