import TaskSeries.Proofs.Series.GoesOn
import TaskSeries.Proofs.Series.Places

/-!
# Series whose latest occurrence has lost its due date

When the latest occurrence of a series has no due date, a pass computes the date anew from that of the
parent. For occurrences that passes have made this leads on as if the date had not been lost
(`continuation_clearLatest`). When the date computed anew is out of range, however, the pass takes the
series for one that has no occurrence yet and begins with the first due date once more
(`materialize_unanchored`, `materialize_lateParent`).
-/

namespace TaskSeries.Series

open TaskSeries.Calendar

variable {p : Period} {first : Instant} {parent t : Task} {children : List Task} {k : Nat}

/-! ## The date to go on from -/

/-- A series goes on from the due date of its latest occurrence, or from the date computed for its
place. -/
lemma anchor_of_isLatest (h : IsLatest children t) (hk : t.mask = some k) (p : Period)
    (first : Instant) :
    anchor p first children = (t.due <|> advanceTimes p k first) := by
  unfold anchor
  rw [latest_eq_some_iff.mpr h, h.nextMask_eq hk]
  rfl

/-- A series whose next due date is out of range has ended. -/
lemma not_goesOn_of_advance {date : Instant} (hrecur : parent.recur = some p)
    (hdue : parent.due = some first) (hanchor : anchor p first children = some date)
    (hout : p.advance date = none) : ¬ GoesOn parent children := by
  rintro ⟨p', first', due, hrecur', hdue', hnext, -⟩
  obtain rfl := Option.some.inj (hrecur.symm.trans hrecur')
  obtain rfl := Option.some.inj (hdue.symm.trans hdue')
  rw [hanchor, nextDue, hout, Option.filter_none] at hnext
  exact absurd hnext.symm (Option.some_ne_none due)

/-- A series without a date to go on from goes on with its first due date. -/
lemma goesOn_iff_of_unanchored (hrecur : parent.recur = some p) (hdue : parent.due = some first)
    (hanchor : anchor p first children = none) :
    GoesOn parent children ↔ withinExpiry parent.expiry first = true := by
  constructor
  · rintro ⟨p', first', due, hrecur', hdue', hnext, hwithin⟩
    obtain rfl := Option.some.inj (hrecur.symm.trans hrecur')
    obtain rfl := Option.some.inj (hdue.symm.trans hdue')
    rw [hanchor] at hnext
    rw [Option.some.inj hnext]
    exact hwithin
  · exact fun hwithin => ⟨p, first, first, hrecur, hdue, by rw [hanchor]; rfl, hwithin⟩

lemma not_withinExpiry_iff {expiry : Option Instant} {due : Instant} :
    ¬ withinExpiry expiry due = true ↔ ∃ e, expiry = some e ∧ e < due := by
  rw [withinExpiry_iff, not_forall]
  constructor
  · rintro ⟨e, h⟩
    obtain ⟨hexpiry, hlater⟩ := Classical.not_imp.mp h
    exact ⟨e, hexpiry, Decidable.of_not_not hlater⟩
  · rintro ⟨e, hexpiry, hlater⟩
    exact ⟨e, fun h => h hexpiry hlater⟩

/-- Behind a latest occurrence whose date is known a pass makes nothing when the next date is out of
range. When the date of the latest occurrence itself is lost and out of range, the pass fills in the
dates of a series that only begins, at the places behind the latest occurrence; it makes nothing exactly
when enough is ahead already or the expiry lies before the first due date. -/
theorem materialize_unanchored (hrecur : parent.recur = some p) (hdue : parent.due = some first)
    (hlatest : IsLatest children t) (hmask : t.mask = some k) (now : Instant) (horizon : Nat)
    (draw : Nat → TaskId) :
    (∀ date, (t.due <|> advanceTimes p k first) = some date → p.advance date = none →
      materialize parent children now horizon draw = []) ∧
    (t.due = none → advanceTimes p k first = none →
      materialize parent children now horizon draw =
        occurrences parent now draw (k + 1) (missingDues p first parent.expiry now horizon mostPerPass
          none (pendingAhead children now)) ∧
      (materialize parent children now horizon draw = [] ↔
        horizon ≤ pendingAhead children now ∨ ∃ e, parent.expiry = some e ∧ e < first)) := by
  have hanchor := anchor_of_isLatest hlatest hmask p first
  constructor
  · intro date hdate hout
    have hended := not_goesOn_of_advance hrecur hdue (hanchor.trans hdate) hout
    exact materialize_eq_nil_iff.mpr fun hgoes => absurd hgoes hended
  · intro hundated hout
    -- the series has a latest occurrence, and yet no date to go on from
    have hnone : anchor p first children = none := by
      rw [hanchor, hundated, hout]
      rfl
    constructor
    · rw [materialize_of_some hrecur hdue, hlatest.nextMask_eq hmask, hnone]
    · rw [materialize_eq_nil_iff, goesOn_iff_of_unanchored hrecur hdue hnone, imp_iff_or_not,
        not_withinExpiry_iff]

/-- A daily backup that was moved to the last day of the range. -/
def lateParent : Task :=
  { Task.fresh (TaskId.drawn 7 0) "backup" .epoch with
    due := some ⟨8210266790400, 0, by decide⟩
    recur := some (.calendar .day 1 false) }

/-- The first backup. -/
def firstBackup : Task :=
  occurrence lateParent (TaskId.drawn 7 1) ⟨8210266790400, 0, by decide⟩ 0 .epoch

/-- The second backup, which has lost its due date. -/
def undatedBackup : Task :=
  { firstBackup with
    id := TaskId.drawn 7 2
    due := none
    mask := some 1 }

lemma isLatest_undatedBackup : IsLatest [firstBackup, undatedBackup] undatedBackup :=
  isLatest_concat (l := [firstBackup]) rfl (by decide)

/-- Nothing is made behind the first backup, whose next date is out of range, and nothing behind the
second one as long as one is ahead. -/
theorem materialize_unanchored_backup :
    (lateParent.recur = some (.calendar .day 1 false) ∧
      lateParent.due = some ⟨8210266790400, 0, by decide⟩) ∧
    (IsLatest [firstBackup] firstBackup ∧ firstBackup.mask = some 0 ∧
      materialize lateParent [firstBackup] .epoch 2 (TaskId.drawn 8) = []) ∧
    (IsLatest [firstBackup, undatedBackup] undatedBackup ∧ undatedBackup.mask = some 1 ∧
      materialize lateParent [firstBackup, undatedBackup] .epoch 1 (TaskId.drawn 8) = []) := by
  have hfirst : IsLatest [firstBackup] firstBackup := isLatest_concat (l := []) rfl (by simp)
  refine ⟨⟨rfl, rfl⟩, ⟨hfirst, rfl, ?_⟩, isLatest_undatedBackup, rfl, ?_⟩
  · exact (materialize_unanchored rfl rfl hfirst rfl .epoch 2 (TaskId.drawn 8)).1 _ rfl (by decide)
  · have hout : advanceTimes (.calendar .day 1 false) 1 ⟨8210266790400, 0, by decide⟩ = none := by decide
    exact ((materialize_unanchored rfl rfl isLatest_undatedBackup rfl .epoch 1 (TaskId.drawn 8)).2
      rfl hout).2.mpr (.inl (by decide))

/-- The place of the second backup is out of range, and yet another one is made, with the first due date
once more. -/
theorem materialize_lateParent :
    lateParent.recur = some (.calendar .day 1 false) ∧
    lateParent.due = some ⟨8210266790400, 0, by decide⟩ ∧
    IsLatest [firstBackup, undatedBackup] undatedBackup ∧ undatedBackup.mask = some 1 ∧
    undatedBackup.due = none ∧
    advanceTimes (.calendar .day 1 false) 1 ⟨8210266790400, 0, by decide⟩ = none ∧
    materialize lateParent [firstBackup, undatedBackup] .epoch 2 (TaskId.drawn 8) =
      [occurrence lateParent (TaskId.drawn 8 0) ⟨8210266790400, 0, by decide⟩ 2 .epoch] := by
  refine ⟨rfl, rfl, isLatest_undatedBackup, rfl, rfl, by decide, by decide +kernel⟩

/-! ## Occurrences that passes have made -/

/-- The occurrences that passes have made for a parent. What has become of them since has left their
places and due dates alone. -/
inductive MadeBy (parent : Task) : List Task → Prop
  | nil : MadeBy parent []
  | pass {children : List Task} (h : MadeBy parent children) (now : Instant) (horizon : Nat)
    (draw : Nat → TaskId) : MadeBy parent (children ++ materialize parent children now horizon draw)
  | change {children : List Task} {g : Task → Task} (h : MadeBy parent children)
    (hg : ∀ t ∈ children, slot (g t) = slot t) : MadeBy parent (children.map g)

lemma slots_concat (start : Nat) (dues : List Instant) (due : Instant) :
    slots start (dues ++ [due]) = slots start dues ++ [(some (start + dues.length), some due)] := by
  unfold slots
  rw [List.zipIdx_append, List.map_append]
  rfl

/-- Of occurrences that take the places from the first one on, the last is the latest. -/
lemma exists_isLatest_of_slots {dues : List Instant} {due : Instant}
    (h : children.map slot = slots 0 (dues ++ [due])) :
    ∃ t, IsLatest children t ∧ t.mask = some dues.length ∧ t.due = some due := by
  rw [slots_concat, Nat.zero_add, List.map_eq_append_iff] at h
  obtain ⟨init, last, rfl, hinit, hlast⟩ := h
  obtain ⟨t, rfl, ht⟩ := List.map_eq_singleton_iff.mp hlast
  obtain ⟨hmask, hdue⟩ := Prod.mk.inj ht
  refine ⟨t, isLatest_concat hmask fun c hc k hk => ?_, hmask, hdue⟩
  -- an occurrence before the last one has one of the places before its place
  have hmem : slot c ∈ slots 0 dues := hinit ▸ List.mem_map_of_mem hc
  obtain ⟨⟨d, place⟩, hplace, heq⟩ := List.mem_map.mp hmem
  obtain rfl : place = k := Option.some.inj ((Prod.mk.inj heq).1.trans hk)
  exact Nat.le_of_lt (List.getElem?_eq_some_iff.mp (List.mem_zipIdx_iff_getElem?.mp hplace)).1

/-- Occurrences that take the places from the first one on are followed by the next place, and the
series goes on from the last of their dates. -/
lemma next_of_slots {dues : List Instant} (h : children.map slot = slots 0 dues) (p : Period)
    (first : Instant) :
    nextMask children = dues.length ∧ anchor p first children = dues.getLast? := by
  rcases List.eq_nil_or_concat dues with rfl | ⟨init, due, rfl⟩
  · rw [List.map_eq_nil_iff.mp h]
    exact ⟨rfl, rfl⟩
  · rw [List.concat_eq_append] at h ⊢
    obtain ⟨t, hlatest, hmask, hdue⟩ := exists_isLatest_of_slots h
    rw [hlatest.nextMask_eq hmask, anchor_of_isLatest hlatest hmask, hdue, List.length_append,
      List.getLast?_concat]
    exact ⟨rfl, rfl⟩

/-- Occurrences that passes have made take the places from the first one on, and each is due as many
periods behind the first due date. -/
lemma MadeBy.exists_dues (h : MadeBy parent children) (hrecur : parent.recur = some p)
    (hdue : parent.due = some first) :
    ∃ dues, children.map slot = slots 0 dues ∧ OnCourse p first dues := by
  induction h with
  | nil => exact ⟨[], rfl, onCourse_nil⟩
  | @pass children _ now horizon draw ih =>
    obtain ⟨dues, hslots, hcourse⟩ := ih
    -- the pass goes on behind the last of the places and dates that are there
    obtain ⟨hnext, hanchor⟩ := next_of_slots hslots p first
    have hmore : OnCourse p first (dues ++ missingDues p first parent.expiry now horizon mostPerPass
        dues.getLast? (pendingAhead children now)) :=
      hcourse.append_missingDues parent.expiry now mostPerPass (pendingAhead children now)
    refine ⟨_, ?_, hmore⟩
    rw [materialize_of_some hrecur hdue, List.map_append, map_slot_occurrences, hslots, hnext, hanchor]
    unfold slots
    rw [List.zipIdx_append, List.map_append, Nat.zero_add]
  | change _ hg ih =>
    obtain ⟨dues, hslots, hcourse⟩ := ih
    refine ⟨dues, ?_, hcourse⟩
    rw [List.map_map, ← hslots]
    exact List.map_congr_left hg

/-- For a parent without a period or a due date there are none. -/
lemma MadeBy.eq_nil (h : MadeBy parent children)
    (hnothing : ∀ children now horizon draw, materialize parent children now horizon draw = []) :
    children = [] := by
  induction h with
  | nil => rfl
  | pass _ _ _ _ ih => rw [hnothing, List.append_nil, ih]
  | change _ _ ih => rw [ih, List.map_nil]

/-! ## The latest due date cleared -/

/-- The occurrences with the due date of the latest one cleared. -/
def clearLatest (children : List Task) : List Task :=
  children.map fun t => if latest children = some t then { t with due := none } else t

/-- The latest occurrence stays the latest one without its date. -/
lemma isLatest_clearLatest (h : IsLatest children t) :
    IsLatest (clearLatest children) { t with due := none } := by
  rw [← latest_eq_some_iff] at h ⊢
  unfold clearLatest
  rw [latest_map, h, Option.map_some, if_pos rfl]
  intro u
  split_ifs <;> rfl

/-- An occurrence without a due date does not count as ahead. -/
lemma pendingAhead_clearLatest_le (children : List Task) (now : Instant) :
    pendingAhead (clearLatest children) now ≤ pendingAhead children now := by
  unfold pendingAhead clearLatest
  rw [List.countP_map]
  refine List.countP_mono_left fun t _ hahead => ?_
  rw [Function.comp_apply] at hahead
  split_ifs at hahead
  · unfold isAhead at hahead
    rw [Option.any_none, Bool.and_false] at hahead
    exact absurd hahead Bool.false_ne_true
  · exact hahead

/-- Fewer occurrences ahead leave no fewer dates missing. -/
lemma length_missingDues_le {expiry : Option Instant} {now : Instant} {horizon cap ahead ahead' : Nat}
    {last : Option Instant} (h : ahead' ≤ ahead) :
    (missingDues p first expiry now horizon cap last ahead).length ≤
      (missingDues p first expiry now horizon cap last ahead').length := by
  have hle := (@wholeDues_grow p first expiry now horizon last ahead now ahead'
    (Instant.lt_irrefl now) h).length_le
  rw [missingDues_eq_take, missingDues_eq_take, List.length_take, List.length_take]
  omega

/-! ## The course of a series -/

/-- Consecutive places of a series from one on, with the due date that the period gives each. -/
def course (p : Period) (first : Instant) (start n : Nat) : List (Option Nat × Option Instant) :=
  (List.range n).map fun i => (some (start + i), advanceTimes p (start + i) first)

lemma length_course (p : Period) (first : Instant) (start n : Nat) :
    (course p first start n).length = n := by
  unfold course
  rw [List.length_map, List.length_range]

section
variable {date : Instant} {expiry : Option Instant} {now : Instant} {horizon cap ahead : Nat}
  (hdate : advanceTimes p k first = some date)
include hdate

/-- The dates missing behind the one at a place are those at the next places. -/
lemma advanceTimes_of_missingDues {i : Nat} {due : Instant}
    (h : (missingDues p first expiry now horizon cap (some date) ahead)[i]? = some due) :
    advanceTimes p (k + 1 + i) first = some due := by
  have hcandidate := ((missingDues_spec p first expiry now horizon cap (some date) ahead).1 i due
    h).candidate
  rw [candidate_some] at hcandidate
  rw [Nat.add_assoc, Nat.add_comm 1 i, advanceTimes_add, hdate]
  exact hcandidate

/-- What a walk gives behind the date of a place is on course. -/
lemma slots_missingDues :
    slots (k + 1) (missingDues p first expiry now horizon cap (some date) ahead) =
      course p first (k + 1)
        (missingDues p first expiry now horizon cap (some date) ahead).length := by
  apply List.ext_getElem?
  intro i
  unfold slots course
  rw [List.getElem?_map, List.getElem?_zipIdx, List.getElem?_map]
  cases hi : (missingDues p first expiry now horizon cap (some date) ahead)[i]? with
  | none =>
    rw [List.getElem?_eq_none_iff] at hi
    rw [List.getElem?_eq_none (by simpa using hi)]
    rfl
  | some due =>
    rw [List.getElem?_range (List.getElem?_eq_some_iff.mp hi).1, Option.map_some, Option.map_some,
      Option.map_some, advanceTimes_of_missingDues hdate hi]

/-- What a pass makes is on the course when the latest occurrence has the due date of its place, or has
none. -/
lemma map_slot_materialize (hrecur : parent.recur = some p) (hdue : parent.due = some first)
    (hlatest : IsLatest children t) (hmask : t.mask = some k)
    (htdue : t.due = some date ∨ t.due = none) (draw : Nat → TaskId) :
    (materialize parent children now horizon draw).map slot =
      course p first (k + 1) (missingDues p first parent.expiry now horizon mostPerPass (some date)
        (pendingAhead children now)).length := by
  have hanchor : anchor p first children = some date := by
    rw [anchor_of_isLatest hlatest hmask, hdate]
    rcases htdue with hsome | hnone
    · rw [hsome]
      rfl
    · rw [hnone]
      rfl
  rw [materialize_of_some hrecur hdue, map_slot_occurrences, hlatest.nextMask_eq hmask, hanchor,
    slots_missingDues hdate]

end

/-- Whether the latest of the occurrences that passes have made has its due date or not, the next pass
takes up one and the same course: the places are those behind the latest one, and at each of them the
occurrence is due as many periods behind the first due date. More may be made without the date, but
never less. -/
theorem continuation_clearLatest (h : MadeBy parent children) (hsome : children ≠ []) :
    ∃ p first t k, parent.recur = some p ∧ parent.due = some first ∧
      latest children = some t ∧ t.mask = some k ∧
      ∀ now horizon draw draw', ∃ n m, n ≤ m ∧
        (materialize parent children now horizon draw).map slot = course p first (k + 1) n ∧
        (materialize parent (clearLatest children) now horizon draw').map slot =
          course p first (k + 1) m ∧
        ∀ i < m, (advanceTimes p (k + 1 + i) first).isSome := by
  rcases dated_or_materialize_eq_nil parent with ⟨p, first, hrecur, hdue⟩ | hnothing
  · obtain ⟨dues, hslots, hcourse⟩ := h.exists_dues hrecur hdue
    rcases List.eq_nil_or_concat dues with rfl | ⟨init, date, rfl⟩
    · exact absurd (List.map_eq_nil_iff.mp hslots) hsome
    · rw [List.concat_eq_append] at hslots hcourse
      obtain ⟨t, hlatest, hmask, htdue⟩ := exists_isLatest_of_slots hslots
      -- the date that may be lost is the one that its place gives
      have hdate : advanceTimes p init.length first = some date :=
        hcourse init.length date List.getElem?_concat_length
      refine ⟨p, first, t, init.length, hrecur, hdue, latest_eq_some_iff.mpr hlatest, hmask, ?_⟩
      intro now horizon draw draw'
      refine ⟨_, _, length_missingDues_le (pendingAhead_clearLatest_le children now),
        map_slot_materialize hdate hrecur hdue hlatest hmask (.inl htdue) draw,
        map_slot_materialize hdate hrecur hdue (isLatest_clearLatest hlatest) hmask (.inr rfl) draw', ?_⟩
      intro i hi
      rw [advanceTimes_of_missingDues hdate (List.getElem?_eq_getElem hi)]
      rfl
  · exact absurd (h.eq_nil hnothing) hsome

/-- The bins after two passes, the first of their occurrences completed meanwhile. -/
def binsMade : List Task :=
  let made := (materialize weeklyParent [] .epoch 1 (TaskId.drawn 1)).map fun t =>
    { t with status := .completed }
  made ++ materialize weeklyParent made .epoch 1 (TaskId.drawn 2)

/-- The latest occurrence of the bins, the third one, is ahead when it has its date. One more is made behind
it then, and two when it has lost the date: the first part and the whole of one course. -/
theorem continuation_clearLatest_bins :
    (MadeBy weeklyParent binsMade ∧ binsMade ≠ []) ∧
    binsMade.map slot = (List.range 3).map (fun i : Nat => (some i, Instant.epoch.plusDays (7 * i))) ∧
    course (.calendar .week 1 false) .epoch 3 2 =
      [(some 3, Instant.epoch.plusDays 21), (some 4, Instant.epoch.plusDays 28)] ∧
    (materialize weeklyParent binsMade .epoch 2 (TaskId.drawn 3)).map slot =
      course (.calendar .week 1 false) .epoch 3 1 ∧
    (materialize weeklyParent (clearLatest binsMade) .epoch 2 (TaskId.drawn 4)).map slot =
      course (.calendar .week 1 false) .epoch 3 2 := by
  have hfirst : MadeBy weeklyParent (materialize weeklyParent [] .epoch 1 (TaskId.drawn 1)) :=
    MadeBy.nil.pass .epoch 1 (TaskId.drawn 1)
  have hdone : MadeBy weeklyParent
      ((materialize weeklyParent [] .epoch 1 (TaskId.drawn 1)).map fun t =>
        { t with status := .completed }) :=
    hfirst.change fun _ _ => rfl
  have hmade : MadeBy weeklyParent binsMade := hdone.pass .epoch 1 (TaskId.drawn 2)
  have hsome : binsMade ≠ [] := by decide +kernel
  obtain ⟨p, first, t, k, hrecur, hdue, hlatest, hmask, hcourse⟩ := continuation_clearLatest hmade hsome
  obtain rfl : .calendar .week 1 false = p := Option.some.inj hrecur
  obtain rfl : Instant.epoch = first := Option.some.inj hdue
  have hk : k = 2 := by
    have hplace : (latest binsMade).bind Task.mask = some 2 := by decide +kernel
    rw [hlatest, Option.bind_some, hmask] at hplace
    exact Option.some.inj hplace
  rw [hk] at hcourse
  obtain ⟨n, m, -, hdated, hundated, -⟩ := hcourse .epoch 2 (TaskId.drawn 3) (TaskId.drawn 4)
  -- how much is made tells how far along the course it goes
  have hn : n = 1 := by
    have hlength : (materialize weeklyParent binsMade .epoch 2 (TaskId.drawn 3)).length = 1 := by
      decide +kernel
    rw [← List.length_map slot, hdated, length_course] at hlength
    exact hlength
  have hm : m = 2 := by
    have hlength : (materialize weeklyParent (clearLatest binsMade) .epoch 2
        (TaskId.drawn 4)).length = 2 := by decide +kernel
    rw [← List.length_map slot, hundated, length_course] at hlength
    exact hlength
  rw [hn] at hdated
  rw [hm] at hundated
  exact ⟨⟨hmade, hsome⟩, by decide +kernel, by decide +kernel, hdated, hundated⟩

end TaskSeries.Series
