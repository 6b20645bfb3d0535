import TaskSeries.Proofs.Period.Advance
import TaskSeries.Proofs.Series.Added

/-!
# Series that lack occurrences

A pass makes something for a parent exactly when its series goes on and too few of its occurrences are
ahead (`materialize_eq_nil_iff`). Both can be told from the occurrences in any order, from what the
store has made of them, and from occurrences whose status has changed, as far as the count of those
ahead is concerned.
-/

namespace TaskSeries.Series

open TaskSeries.Calendar

/-- The series has another due date behind its latest occurrence, and its expiry allows it. -/
def GoesOn (parent : Task) (children : List Task) : Prop :=
  ∃ p first due, parent.recur = some p ∧ parent.due = some first ∧
    nextDue p first (anchor p first children) = some due ∧ withinExpiry parent.expiry due = true

/-- A pass makes nothing exactly when the series has ended or enough of it is ahead. -/
lemma materialize_eq_nil_iff {parent : Task} {children : List Task} {now : Instant} {horizon : Nat}
    {draw : Nat → TaskId} :
    materialize parent children now horizon draw = [] ↔
      (GoesOn parent children → horizon ≤ pendingAhead children now) := by
  constructor
  · rintro h ⟨p, first, due, hrecur, hdue, hnext, hwithin⟩
    rw [materialize_of_some hrecur hdue, ← List.length_eq_zero_iff, length_occurrences,
      List.length_eq_zero_iff, missingDues_eq_take, List.take_eq_nil_iff] at h
    rcases h with hcap | hwhole
    · exact absurd hcap (by decide)
    · exact wholeDues_eq_nil_iff.mp hwhole due hnext hwithin
  · intro h
    rcases dated_or_materialize_eq_nil parent with ⟨p, first, hrecur, hdue⟩ | hnil
    · have hwhole : wholeDues p first parent.expiry now horizon (anchor p first children)
          (pendingAhead children now) = [] :=
        wholeDues_eq_nil_iff.mpr fun due hnext hwithin =>
          h ⟨p, first, due, hrecur, hdue, hnext, hwithin⟩
      rw [materialize_of_some hrecur hdue, missingDues_eq_take, hwhole]
      rfl
    · exact hnil _ _ _ _

/-! ## Occurrences in another order -/

/-- Where no place is taken twice, the order of the occurrences does not matter for the date to go on
from. -/
lemma anchor_perm {l l' : List Task} (h : l.Perm l') (hl : (l.filterMap Task.mask).Nodup)
    (p : Period) (first : Instant) : anchor p first l = anchor p first l' := by
  unfold anchor
  rw [latest_perm h hl, nextMask_perm h]

/-- Nor does it for whether the series goes on. -/
lemma goesOn_perm {l l' : List Task} (h : l.Perm l') (hl : (l.filterMap Task.mask).Nodup)
    (parent : Task) : GoesOn parent l ↔ GoesOn parent l' := by
  unfold GoesOn
  simp only [anchor_perm h hl]

lemma pendingAhead_perm {l l' : List Task} (h : l.Perm l') (now : Instant) :
    pendingAhead l now = pendingAhead l' now :=
  h.countP_eq _

/-- What is made for a parent does not depend on the order of the occurrences that it has. -/
lemma materialize_perm {l l' : List Task} (h : l.Perm l') (hl : (l.filterMap Task.mask).Nodup)
    (parent : Task) (now : Instant) (horizon : Nat) (draw : Nat → TaskId) :
    materialize parent l now horizon draw = materialize parent l' now horizon draw := by
  rcases dated_or_materialize_eq_nil parent with ⟨p, first, hrecur, hdue⟩ | hnil
  · rw [materialize_of_some hrecur hdue, materialize_of_some hrecur hdue, nextMask_perm h,
      anchor_perm h hl, pendingAhead_perm h]
  · rw [hnil, hnil]

/-- Neither does whether it fits. -/
lemma fits_perm {l l' : List Task} (h : l.Perm l') (hl : (l.filterMap Task.mask).Nodup)
    (parent : Task) (now : Instant) (horizon : Nat) :
    Fits parent l now horizon ↔ Fits parent l' now horizon := by
  unfold Fits lacking
  rw [materialize_perm h hl, nextMask_perm h]

/-! ## Occurrences that were changed -/

section
variable {g : Task → Task} {l : List Task}

/-- Changes that keep places and dates keep the date to go on from. -/
lemma anchor_map (hmask : ∀ t, (g t).mask = t.mask) (hdue : ∀ t ∈ l, (g t).due = t.due) (p : Period)
    (first : Instant) : anchor p first (l.map g) = anchor p first l := by
  unfold anchor
  rw [latest_map hmask, nextMask_map hmask]
  cases hlatest : latest l with
  | none => rfl
  | some t =>
    show ((g t).due <|> _) = _
    rw [hdue t (latest_eq_some_iff.mp hlatest).mem]

/-- Whether a series goes on depends on nothing but the places and due dates of its occurrences. -/
lemma goesOn_map (hmask : ∀ t, (g t).mask = t.mask) (hdue : ∀ t ∈ l, (g t).due = t.due)
    (parent : Task) : GoesOn parent (l.map g) ↔ GoesOn parent l := by
  unfold GoesOn
  simp only [anchor_map hmask hdue]

lemma pendingAhead_map {now : Instant} (h : ∀ t ∈ l, isAhead now (g t) = isAhead now t) :
    pendingAhead (l.map g) now = pendingAhead l now := by
  unfold pendingAhead
  rw [List.countP_map]
  exact List.countP_congr fun t ht => by rw [Function.comp_apply, h t ht]

end

/-! ## Due dates in whole milliseconds -/

section
variable {p : Period} {first : Instant}

/-- From a date in whole milliseconds the next one is in whole milliseconds. -/
lemma isWhole_nextDue {last : Option Instant} {due : Instant} (hfirst : first.IsWhole)
    (hlast : ∀ prev, last = some prev → prev.IsWhole) (h : nextDue p first last = some due) :
    due.IsWhole := by
  cases last with
  | none =>
    rw [← Option.some.inj h]
    exact hfirst
  | some prev => exact Period.isWhole_advance (hlast prev rfl) (Option.filter_eq_some_iff.mp h).1

lemma isWhole_of_mem_missingDues {expiry : Option Instant} {now : Instant} {horizon cap ahead : Nat}
    {last : Option Instant} (hfirst : first.IsWhole)
    (hlast : ∀ prev, last = some prev → prev.IsWhole) :
    ∀ due ∈ missingDues p first expiry now horizon cap last ahead, due.IsWhole := by
  rw [missingDues_eq_take]
  -- the bound does not matter, as all dates of the whole walk are in whole milliseconds
  suffices hwhole : ∀ due ∈ wholeDues p first expiry now horizon last ahead, due.IsWhole from
    fun due hdue => hwhole due (List.mem_of_mem_take hdue)
  generalize hdues : wholeDues p first expiry now horizon last ahead = dues
  induction dues generalizing last ahead with
  | nil => exact fun due hdue => absurd hdue List.not_mem_nil
  | cons due rest ih =>
    obtain ⟨-, hnext, -, hrest⟩ := wholeDues_eq_cons_iff.mp hdues
    have hdue := isWhole_nextDue hfirst hlast hnext
    refine List.forall_mem_cons.mpr ⟨hdue, ih (fun prev hprev => ?_) hrest⟩
    rw [← Option.some.inj hprev]
    exact hdue

lemma isWhole_advanceTimes {n : Nat} {r due : Instant} (hr : r.IsWhole)
    (h : advanceTimes p n r = some due) : due.IsWhole := by
  induction n generalizing r with
  | zero =>
    rw [← Option.some.inj h]
    exact hr
  | succ n ih =>
    obtain ⟨next, hnext, hrest⟩ := Option.bind_eq_some_iff.mp h
    exact ih (Period.isWhole_advance hr hnext) hrest

lemma isWhole_anchor {children : List Task} (hfirst : first.IsWhole)
    (hchildren : ∀ t ∈ children, ∀ due, t.due = some due → due.IsWhole) :
    ∀ due, anchor p first children = some due → due.IsWhole := by
  intro due h
  unfold anchor at h
  cases hlatest : latest children with
  | none =>
    rw [hlatest] at h
    exact absurd h nofun
  | some t =>
    rw [hlatest] at h
    cases hdue : t.due with
    | none =>
      simp only [hdue] at h
      exact isWhole_advanceTimes hfirst h
    | some d =>
      simp only [hdue] at h
      rw [← Option.some.inj h]
      exact hchildren t (latest_eq_some_iff.mp hlatest).mem d hdue

end

/-- What is made for a parent is due within its expiry, and in whole milliseconds if all dates it is
computed from are. -/
lemma due_of_mem_materialize {parent t : Task} {children : List Task} {now : Instant} {horizon : Nat}
    {draw : Nat → TaskId} (ht : t ∈ materialize parent children now horizon draw) :
    t.expiry = parent.expiry ∧ ∃ due, t.due = some due ∧ withinExpiry parent.expiry due = true ∧
      ((∀ u ∈ parent :: children, ∀ d, u.due = some d → d.IsWhole) → due.IsWhole) := by
  rcases dated_or_materialize_eq_nil parent with ⟨p, first, hrecur, hdue⟩ | hnil
  · rw [materialize_of_some hrecur hdue] at ht
    obtain ⟨i, due, hi, rfl⟩ := mem_occurrences ht
    refine ⟨rfl, due, rfl, ?_, fun hwhole => ?_⟩
    · rw [withinExpiry_iff]
      exact ((missingDues_spec _ _ _ _ _ _ _ _).1 i due hi).within
    · rw [List.forall_mem_cons] at hwhole
      have hfirst := hwhole.1 first hdue
      exact isWhole_of_mem_missingDues hfirst (isWhole_anchor hfirst hwhole.2) due
        (List.mem_iff_getElem?.mpr ⟨i, hi⟩)
  · rw [hnil] at ht
    exact absurd ht List.not_mem_nil

end TaskSeries.Series
