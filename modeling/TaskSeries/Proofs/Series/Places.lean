import TaskSeries.Proofs.Series.Passes
import TaskSeries.Proofs.Series.Workdays

/-!
# Places and due dates

The occurrence at a place of a series is due as many periods behind the first due date, whatever the
passes were that made it and whenever they took place (`OnCourse`, `exists_place_of_mem_afterPasses`). So
a series of weekdays has its second and all later occurrences on workdays. The first one is due when its
parent is, and with it the series begins on a weekend if the parent does: `weekdays_afterPasses`.
-/

namespace TaskSeries.Series

open TaskSeries.Calendar

variable {p : Period} {first : Instant} {parent : Task} {horizon : Nat}

/-! ## Candidates as periods behind a date -/

/-- The candidates of a series that begins are the first date and one period after another. -/
lemma candidate_none (p : Period) (first : Instant) (i : Nat) :
    candidate p first none i = advanceTimes p i first := by
  induction i with
  | zero => rfl
  | succ i ih =>
    rw [advanceTimes_succ, ← ih]
    rfl

/-- Behind a date, they are one period after another from there on. -/
lemma candidate_some (p : Period) (first prev : Instant) (i : Nat) :
    candidate p first (some prev) i = advanceTimes p (i + 1) prev := by
  induction i with
  | zero =>
    rw [advanceTimes_succ]
    rfl
  | succ i ih =>
    rw [advanceTimes_succ, ← ih]
    rfl

/-! ## What the passes keep -/

/-- The date at each index is as many periods behind the first one. -/
def OnCourse (p : Period) (first : Instant) (dues : List Instant) : Prop :=
  ∀ i due, dues[i]? = some due → advanceTimes p i first = some due

lemma onCourse_nil : OnCourse p first [] := fun _ _ h => absurd h nofun

/-- A pass that goes on from the last date stays on course. -/
lemma OnCourse.append_missingDues {dues : List Instant} (h : OnCourse p first dues)
    (expiry : Option Instant) (now : Instant) (cap ahead : Nat) :
    OnCourse p first
      (dues ++ missingDues p first expiry now horizon cap dues.getLast? ahead) := by
  intro i due hdue
  by_cases hi : i < dues.length
  · rw [List.getElem?_append_left hi] at hdue
    exact h i due hdue
  · -- the new dates are counted on from the last one that was there
    obtain ⟨k, rfl⟩ := Nat.exists_eq_add_of_le (Nat.le_of_not_lt hi)
    rw [List.getElem?_append_right (Nat.le_add_right _ _), Nat.add_sub_cancel_left] at hdue
    have hcandidate := ((missingDues_spec p first expiry now horizon cap dues.getLast? ahead).1
      k due hdue).candidate
    rcases List.eq_nil_or_concat dues with rfl | ⟨init, last, rfl⟩
    · rw [List.length_nil, Nat.zero_add, ← candidate_none]
      exact hcandidate
    · rw [List.concat_eq_append] at h hcandidate ⊢
      rw [List.getLast?_concat, candidate_some] at hcandidate
      have hlast := h init.length last List.getElem?_concat_length
      rw [List.length_append, List.length_singleton, Nat.add_assoc, Nat.add_comm 1 k,
        advanceTimes_add, hlast]
      exact hcandidate

/-- After any passes, at instants in any order, the series is on course. -/
lemma onCourse_afterPasses (hrecur : parent.recur = some p) (hdue : parent.due = some first)
    (passes : List Pass) :
    ∃ dues, Follows p first (afterPasses parent horizon passes) dues ∧ OnCourse p first dues := by
  induction passes using List.reverseRecOn with
  | nil => exact ⟨[], follows_nil, onCourse_nil⟩
  | append_singleton passes pass ih =>
    obtain ⟨dues, hfollows, hcourse⟩ := ih
    have hnext := hfollows.append parent pass.now pass.draw (missingDues p first parent.expiry pass.now
      horizon mostPerPass dues.getLast? (pendingAhead (afterPasses parent horizon passes) pass.now))
    rw [← hfollows.anchor] at hnext
    rw [afterPasses_concat, materialize_of_some hrecur hdue]
    refine ⟨_, hnext, ?_⟩
    rw [hfollows.anchor]
    exact hcourse.append_missingDues _ _ _ _

/-- Every occurrence has a place, and is due as many periods behind the first due date. -/
lemma exists_place_of_mem_afterPasses (hrecur : parent.recur = some p)
    (hdue : parent.due = some first) {passes : List Pass} {t : Task}
    (ht : t ∈ afterPasses parent horizon passes) :
    ∃ place due, t.mask = some place ∧ t.due = some due ∧ advanceTimes p place first = some due := by
  obtain ⟨dues, hfollows, hcourse⟩ := @onCourse_afterPasses p first parent horizon hrecur hdue passes
  have hslot : slot t ∈ slots 0 dues := hfollows.slots ▸ List.mem_map_of_mem ht
  obtain ⟨⟨due, place⟩, hmem, heq⟩ := List.mem_map.mp hslot
  obtain ⟨hmask, hdate⟩ := Prod.mk.inj heq
  exact ⟨place, due, hmask.symm, hdate.symm, hcourse place due (List.mem_zipIdx_iff_getElem?.mp hmem)⟩

/-- As soon as a pass asks for occurrences, the first one is made for the first due date. -/
lemma exists_first_afterPasses (hrecur : parent.recur = some p) (hdue : parent.due = some first)
    (hwithin : withinExpiry parent.expiry first = true) (hhorizon : 0 < horizon) {passes : List Pass}
    (hpasses : passes ≠ []) : ∃ t ∈ afterPasses parent horizon passes, t.due = some first := by
  induction passes using List.reverseRecOn with
  | nil => exact absurd rfl hpasses
  | append_singleton passes pass ih =>
    rw [afterPasses_concat]
    by_cases hearlier : passes = []
    · -- the very first pass
      have hwhole := @wholeDues_of_next p first parent.expiry pass.now horizon none 0 first hhorizon rfl
        hwithin
      refine ⟨occurrence parent (pass.draw 0) first 0 pass.now, ?_, rfl⟩
      rw [hearlier, materialize_of_some hrecur hdue, missingDues_eq_take]
      show _ ∈ occurrences parent pass.now pass.draw 0
        ((wholeDues p first parent.expiry pass.now horizon none 0).take mostPerPass)
      refine List.mem_of_getElem? (i := 0) ?_
      rw [getElem?_occurrences, hwhole]
      rfl
    · obtain ⟨t, ht, hfirst⟩ := ih hearlier
      exact ⟨t, List.mem_append_left _ ht, hfirst⟩

/-- Where the first date is behind the expiry or nothing is asked for, nothing is made. -/
lemma afterPasses_eq_nil (hrecur : parent.recur = some p) (hdue : parent.due = some first)
    (hout : withinExpiry parent.expiry first = true → horizon = 0) (passes : List Pass) :
    afterPasses parent horizon passes = [] := by
  induction passes using List.reverseRecOn with
  | nil => rfl
  | append_singleton passes pass ih =>
    have hnothing : wholeDues p first parent.expiry pass.now horizon none 0 = [] := by
      refine wholeDues_eq_nil_iff.mpr fun due hnext hwithin => ?_
      rw [← Option.some.inj hnext] at hwithin
      exact Nat.le_of_eq (hout hwithin)
    rw [afterPasses_concat, ih, materialize_of_some hrecur hdue, missingDues_eq_take]
    show occurrences parent pass.now pass.draw 0
      ((wholeDues p first parent.expiry pass.now horizon none 0).take mostPerPass) = []
    rw [hnothing]
    rfl

/-- For a parent without a period or a due date nothing is made. -/
lemma afterPasses_eq_nil_of_materialize
    (h : ∀ children now horizon draw, materialize parent children now horizon draw = [])
    (passes : List Pass) : afterPasses parent horizon passes = [] := by
  induction passes using List.reverseRecOn with
  | nil => rfl
  | append_singleton passes pass ih => rw [afterPasses_concat, ih, h, List.append_nil]

/-! ## A series of weekdays -/

/-- In a series of weekdays the occurrence behind the first one and all later ones are due on workdays. -/
lemma workday_of_mem_afterPasses (hrecur : parent.recur = some .weekdays) {passes : List Pass} {t : Task}
    (ht : t ∈ afterPasses parent horizon passes) :
    ∃ place due, t.mask = some place ∧ t.due = some due ∧
      (place = 0 ∧ parent.due = some due ∨ 0 < place ∧ due.weekday.isWeekend = false) := by
  rcases dated_or_materialize_eq_nil parent with ⟨-, first, -, hdue⟩ | hnil
  · obtain ⟨place, due, hmask, htdue, htimes⟩ := exists_place_of_mem_afterPasses hrecur hdue ht
    refine ⟨place, due, hmask, htdue, ?_⟩
    cases place with
    | zero =>
      rw [← Option.some.inj htimes]
      exact .inl ⟨rfl, hdue⟩
    | succ n => exact .inr ⟨Nat.succ_pos n, (later_of_advanceTimes_weekdays htimes).2.1⟩
  · rw [afterPasses_eq_nil_of_materialize hnil] at ht
    exact absurd ht List.not_mem_nil

/-- Whatever passes there are, every occurrence of a series of weekdays but the first one is due on a
workday, and the first one is due when its parent is. So none is due on a weekend exactly when the parent
is not, or when there is no first occurrence: for want of a due date within the expiry, of a horizon, or
of a pass. -/
theorem weekdays_afterPasses {parent : Task} (hrecur : parent.recur = some .weekdays) (horizon : Nat)
    (passes : List Pass) :
    (∀ t ∈ afterPasses parent horizon passes, ∃ place due, t.mask = some place ∧ t.due = some due ∧
      (place = 0 ∧ parent.due = some due ∨ 0 < place ∧ due.weekday.isWeekend = false)) ∧
    ((∀ t ∈ afterPasses parent horizon passes,
        ∃ due, t.due = some due ∧ due.weekday.isWeekend = false) ↔
      ∀ first, parent.due = some first → withinExpiry parent.expiry first = true → 0 < horizon →
        passes ≠ [] → first.weekday.isWeekend = false) := by
  refine ⟨fun t => workday_of_mem_afterPasses hrecur, fun h first hdue hwithin hhorizon hpasses => ?_,
    fun h t ht => ?_⟩
  · obtain ⟨t, ht, hfirst⟩ := exists_first_afterPasses hrecur hdue hwithin hhorizon hpasses
    obtain ⟨due, htdue, hworkday⟩ := h t ht
    rw [Option.some.inj (hfirst.symm.trans htdue)]
    exact hworkday
  · obtain ⟨place, due, -, htdue, ⟨-, hdue⟩ | ⟨-, hworkday⟩⟩ := workday_of_mem_afterPasses hrecur ht
    · -- the first occurrence is there, so that it was asked for
      have hnotnil := List.ne_nil_of_mem ht
      refine ⟨due, htdue, h due hdue ?_ ?_ ?_⟩
      · refine Classical.byContradiction fun hout => hnotnil ?_
        exact afterPasses_eq_nil hrecur hdue (fun hwithin => absurd hwithin hout) passes
      · refine Nat.pos_of_ne_zero fun hzero => hnotnil ?_
        exact afterPasses_eq_nil hrecur hdue (fun _ => hzero) passes
      · rintro rfl
        exact hnotnil rfl
    · exact ⟨due, htdue, hworkday⟩

/-- A stand-up on every weekday, due for the first time on a Saturday or on a Friday, at ten in the
morning. -/
def standUpParent (onSaturday : Bool) : Task :=
  { Task.fresh (TaskId.drawn 7 0) "stand-up" .epoch with
    due := some (if onSaturday then ⟨208800, 0, by decide⟩ else ⟨122400, 0, by decide⟩)
    recur := some .weekdays }

/-- Passes for the stand-up on a Monday and, with the clock set back, on the first day: it takes place on
the Friday, the Monday, the Tuesday and the Wednesday. -/
theorem weekdays_afterPasses_standUp :
    let passes : List Pass :=
      [⟨⟨345600, 0, by decide⟩, TaskId.drawn 1⟩, ⟨.epoch, TaskId.drawn 2⟩]
    (standUpParent false).recur = some .weekdays ∧
    (afterPasses (standUpParent false) 3 passes).map slot =
      [(some 0, some ⟨122400, 0, by decide⟩), (some 1, some ⟨381600, 0, by decide⟩),
        (some 2, some ⟨468000, 0, by decide⟩), (some 3, some ⟨554400, 0, by decide⟩)] ∧
    ∀ t ∈ afterPasses (standUpParent false) 3 passes,
      ∃ due, t.due = some due ∧ due.weekday.isWeekend = false := by
  intro passes
  refine ⟨rfl, by decide +kernel, (weekdays_afterPasses rfl 3 passes).2.mpr ?_⟩
  rintro first hdue - - -
  rw [← Option.some.inj hdue]
  decide

/-- When the parent is due on a Saturday, so is the first occurrence of its weekdays. -/
theorem afterPasses_standUp_saturday :
    (standUpParent true).recur = some .weekdays ∧
    ¬ ∀ t ∈ afterPasses (standUpParent true) 1 [⟨.epoch, TaskId.drawn 1⟩],
      ∃ due, t.due = some due ∧ due.weekday.isWeekend = false := by
  refine ⟨rfl, fun h => ?_⟩
  have hmade : afterPasses (standUpParent true) 1 [⟨.epoch, TaskId.drawn 1⟩] =
      [occurrence (standUpParent true) (TaskId.drawn 1 0) ⟨208800, 0, by decide⟩ 0 .epoch] := by
    decide +kernel
  obtain ⟨due, hdue, hworkday⟩ := h _ (hmade ▸ List.mem_singleton_self _)
  rw [← Option.some.inj hdue] at hworkday
  exact absurd hworkday (by decide)

end TaskSeries.Series
