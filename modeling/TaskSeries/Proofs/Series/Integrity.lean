import TaskSeries.Proofs.Series.Structure

/-!
# Integrity checks of structured tasks

The checks look for items that come twice: `Integrity.repeats` finds none exactly in a list without
repetition. Structured tasks pass the checks in any order, and the report over them shows no
violation.
-/

namespace TaskSeries.Integrity

open TaskSeries.Series

section
variable {α : Type} [BEq α] [LawfulBEq α] [Hashable α] {l : List α}

lemma repeatsFrom_eq_nil_iff (seen : Std.HashSet α) :
    repeatsFrom seen l = [] ↔ l.Nodup ∧ ∀ a ∈ l, a ∉ seen := by
  induction l generalizing seen with
  | nil => simp [repeatsFrom]
  | cons a l ih =>
    rw [repeatsFrom]
    by_cases ha : seen.contains a = true
    · rw [if_pos ha]
      constructor
      · exact fun h => absurd h (List.cons_ne_nil _ _)
      · rintro ⟨-, hnew⟩
        exact absurd (Std.HashSet.contains_iff_mem.mp ha) (hnew a List.mem_cons_self)
    · rw [if_neg ha, ih, List.nodup_cons, List.forall_mem_cons]
      rw [Std.HashSet.contains_iff_mem] at ha
      simp only [Std.HashSet.mem_insert, beq_iff_eq, not_or]
      constructor
      · rintro ⟨hl, hnew⟩
        exact ⟨⟨fun hmem => (hnew a hmem).1 rfl, hl⟩, ha, fun b hb => (hnew b hb).2⟩
      · rintro ⟨⟨hnot, hl⟩, -, hnew⟩
        refine ⟨hl, fun b hb => ⟨?_, hnew b hb⟩⟩
        rintro rfl
        exact hnot hb

/-- Nothing comes again exactly where no item comes twice. -/
lemma repeats_eq_nil_iff : repeats l = [] ↔ l.Nodup := by
  unfold repeats
  rw [repeatsFrom_eq_nil_iff]
  simp

end

variable {tasks l : List Task}

/-- Structured tasks pass the checks in any order. -/
lemma check_eq_ok (h : Structured tasks) (hperm : l.Perm tasks) : check l = .ok () := by
  have hids : repeats (l.map Task.id) = [] :=
    repeats_eq_nil_iff.mpr ((hperm.map Task.id).nodup_iff.mpr h.ids)
  have hplaces : repeats (l.filterMap place?) = [] :=
    repeats_eq_nil_iff.mpr ((hperm.filterMap place?).nodup_iff.mpr h.places)
  unfold check checkIds checkMasks
  rw [hids, hplaces]
  rfl

/-- The places of the children of one parent are places of the tasks. -/
lemma map_placedChildren (p : TaskId) :
    ((placedChildren l p).filterMap Task.mask).map (p, ·) =
      (placedChildren l p).filterMap place? := by
  rw [List.map_filterMap]
  refine List.filterMap_congr fun t ht => ?_
  have hparent : t.parent = some p := by
    have := (List.mem_filter.mp ht).2
    rw [Bool.and_eq_true, beq_iff_eq] at this
    exact this.1
  unfold place?
  rw [hparent]
  cases t.mask <;> rfl

/-- The report is given where every occurrence has a place to count on to. -/
lemma diagnose?_eq_some (h : ∀ t ∈ l, ∀ m, t.mask = some m → m < lastPlace) :
    diagnose? l = some (diagnose l) := by
  refine if_pos (List.all_eq_true.mpr fun p _ => ?_)
  have hnext : nextMask (placedChildren l p) ≤ lastPlace :=
    nextMask_le_lastPlace fun t ht => h t (List.mem_filter.mp ht).1
  rw [nextMask?_eq, if_pos hnext]
  rfl

/-- The report over structured tasks is given, in whatever order they are. -/
lemma diagnose?_of_structured (h : Structured tasks) (hperm : l.Perm tasks) :
    diagnose? l = some (diagnose l) :=
  diagnose?_eq_some fun t ht => h.counted t (hperm.mem_iff.mp ht)

/-- The report over structured tasks shows no violation. -/
lemma diagnose_isOk (h : Structured tasks) (hperm : l.Perm tasks) : (diagnose l).isOk = true := by
  have hids : (diagnose l).duplicateIds = [] := by
    show distinct (repeats (l.map Task.id)) = []
    rw [repeats_eq_nil_iff.mpr ((hperm.map Task.id).nodup_iff.mpr h.ids)]
    rfl
  have hmasks : (diagnose l).duplicateMasks = [] := by
    show (seriesParents l).flatMap _ = []
    rw [List.flatMap_eq_nil_iff]
    intro p _
    have hsub : ((placedChildren l p).filterMap place?).Sublist (l.filterMap place?) :=
      List.filter_sublist.filterMap place?
    have hplaces : (l.filterMap place?).Nodup := (hperm.filterMap place?).nodup_iff.mpr h.places
    have hnodup := hplaces.sublist hsub
    rw [← map_placedChildren] at hnodup
    rw [repeats_eq_nil_iff.mpr (List.Nodup.of_map _ hnodup), List.map_nil]
  unfold Report.isOk
  rw [hids, hmasks]
  rfl

end TaskSeries.Integrity
