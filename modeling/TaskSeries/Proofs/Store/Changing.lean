import TaskSeries.Proofs.Series.Course
import TaskSeries.Proofs.Store.WellFormed

/-!
# Changing stored tasks in place

A command that changes tasks writes each back under its own id. What comes of this is the store with
these tasks changed where they stand and all other rows left alone (`Store.changed`), because no two
stored tasks share an id (`Store.replaced_map`). Changed tasks are read back as long as the instants
that the change writes are regular (`Store.readable_changed_iff`).
-/

namespace TaskSeries

open TaskSeries.Calendar TaskSeries.Series

/-! ## Tasks -/

/-- A task as the store holds it after it was changed. Its entry and its place in a series stay. -/
def Task.changedBy (f : Task → Task) (t : Task) : Task :=
  ((f t).inPlaceOf t).stored

/-- The change leaves the task where it stands: its id, its entry and its place stay, and it has a
period if it had one. -/
lemma Series.Keeps.changedBy {f : Task → Task} {t : Task} (h : Keeps t (f t)) :
    Keeps t (t.changedBy f) :=
  ⟨h.id, rfl, rfl, h.recur⟩

/-- A change that leaves the due date alone, and makes no task pending, moves no stored occurrence to
another date. -/
lemma Series.keepsDate_changedBy {f : Task → Task} {t : Task} (ht : t.stored = t)
    (hdue : (f t).due = t.due) (hpending : (f t).status = .pending → t.status = .pending) :
    KeepsDate t (t.changedBy f) where
  mask := rfl
  due := by
    show (f t).due.map Instant.stored = t.due
    rw [hdue]
    exact congrArg Task.due ht
  pending := hpending

/-! ## The instants of a change -/

/-- The instants that a mutation writes into a task. -/
def Mutation.instants (m : Mutation) (now : Instant) : List Instant :=
  match m with
  | .edit e => now :: (e.due.join.toList ++ e.expiry.join.toList)
  | .delete => [now]

/-- A readable task stays readable exactly when the mutation writes regular instants. -/
lemma Task.readable_changedBy_iff {t : Task} (ht : t.Readable) (m : Mutation) (now : Instant) :
    (t.changedBy (m.apply now)).Readable ↔ ∀ i ∈ m.instants now, i ≤ .lastRegular := by
  unfold Task.Readable Task.instants at ht
  simp only [List.forall_mem_cons, List.forall_mem_append] at ht
  obtain ⟨hentry, -, ⟨hfinished, hdue⟩, hexpiry⟩ := ht
  -- a date that the edit leaves alone is regular already
  have hdate : ∀ (edit : Option (Option Instant)) (old : Option Instant),
      (∀ i ∈ old.toList, i ≤ .lastRegular) →
      ((∀ i ∈ (edit.getD old).toList, i ≤ .lastRegular) ↔
        ∀ i ∈ edit.join.toList, i ≤ .lastRegular) := by
    intro edit old hold
    cases edit with
    | none => simpa using hold
    | some date => exact Iff.rfl
  unfold Task.changedBy
  rw [Task.readable_stored_iff]
  unfold Task.Readable Task.instants Task.inPlaceOf Mutation.instants Mutation.apply
  cases m with
  | edit e =>
    unfold Edit.apply
    simp only [List.forall_mem_cons, List.forall_mem_append, hdate e.due t.due hdue,
      hdate e.expiry t.expiry hexpiry]
    exact ⟨fun ⟨_, hnow, ⟨_, hd⟩, he⟩ => ⟨hnow, hd, he⟩,
      fun ⟨hnow, hd, he⟩ => ⟨hentry, hnow, ⟨hfinished, hd⟩, he⟩⟩
  | delete =>
    simp only [List.forall_mem_cons, List.forall_mem_append, Option.toList_some]
    exact ⟨fun ⟨_, hnow, _⟩ => ⟨hnow, fun _ hi => absurd hi List.not_mem_nil⟩,
      fun ⟨hnow, hnil⟩ => ⟨hentry, hnow, ⟨⟨hnow, hnil⟩, hdue⟩, hexpiry⟩⟩

namespace Store

/-! ## Changes -/

/-- The store with some of its tasks changed in place. -/
def changed (s : Store) (chosen : List Task) (f : Task → Task) : Store :=
  { s with rows := s.rows.map fun r => if r.task ∈ chosen then r.update (f r.task) else r }

variable {s : Store} {chosen : List Task} {f : Task → Task}

lemma changed_nil (s : Store) (f : Task → Task) : s.changed [] f = s := by
  unfold changed
  simp

/-- Those tasks that are chosen are changed, and the others stay. -/
lemma tasks_changed (h : s.Sound) :
    (s.changed chosen f).tasks = s.tasks.map fun t => if t ∈ chosen then t.changedBy f else t := by
  unfold tasks changed
  rw [List.map_map, List.map_map]
  refine List.map_congr_left ?_
  intro r hr
  simp only [Function.comp_apply]
  by_cases hmem : r.task ∈ chosen
  · rw [if_pos hmem, if_pos hmem, (h r hr).update_eq]
    rfl
  · rw [if_neg hmem, if_neg hmem]

section
variable (h : s.WellFormed) (hchosen : ∀ t ∈ chosen, t ∈ s.tasks) (hf : ∀ t, (f t).id = t.id)
include h hchosen hf

/-- Of the changed tasks, the one that has the id of a stored task is what the change made of it. -/
lemma lastWith_map {t : Task} (ht : t ∈ s.tasks) :
    lastWith (chosen.map f) t.id = if t ∈ chosen then some (f t) else none := by
  -- no other chosen task has the id of `t`
  have hsame : ∀ u ∈ chosen, (f u).id = t.id → u = t := by
    intro u hu hid
    exact h.eq_of_id (hchosen u hu) ht ((hf u).symm.trans hid)
  unfold lastWith
  by_cases hmem : t ∈ chosen
  · rw [if_pos hmem]
    have hfound : f t ∈ (chosen.map f).reverse := by
      rw [List.mem_reverse]
      exact List.mem_map_of_mem hmem
    cases hfind : (chosen.map f).reverse.find? (·.id == t.id) with
    | none =>
      rw [List.find?_eq_none] at hfind
      exact absurd (beq_iff_eq.mpr (hf t)) (hfind (f t) hfound)
    | some c =>
      have hid : c.id = t.id := eq_of_beq (List.find?_some hfind :)
      obtain ⟨u, hu, rfl⟩ := List.mem_map.mp (List.mem_reverse.mp (List.mem_of_find?_eq_some hfind))
      rw [hsame u hu hid]
  · rw [if_neg hmem, List.find?_eq_none]
    intro c hc hid
    obtain ⟨u, hu, rfl⟩ := List.mem_map.mp (List.mem_reverse.mp hc)
    rw [hsame u hu (eq_of_beq hid)] at hu
    exact hmem hu

/-- Writing changed tasks back changes them in place. -/
lemma replaced_map : s.replaced (lastWith (chosen.map f)) = s.changed chosen f := by
  unfold replaced changed
  congr 1
  refine List.map_congr_left ?_
  intro r hr
  rw [show r.id = r.task.id from rfl, lastWith_map h hchosen hf (mem_tasks_of_mem_rows hr)]
  split_ifs <;> rfl

/-- Stored tasks can be changed in a store that may be written. -/
lemma updateAll_map_eq_ok (hwrite : s.readOnly = false) :
    s.updateAll (chosen.map f) = .ok (s.changed chosen f) := by
  rw [← replaced_map h hchosen hf]
  refine updateAll_eq_ok hwrite ?_
  intro t ht
  obtain ⟨u, hu, rfl⟩ := List.mem_map.mp ht
  rw [hf u]
  exact List.mem_map_of_mem (hchosen u hu)

/-- When changed tasks were written back, they were changed in place. -/
lemma eq_changed_of_updateAll {next : Store} (hok : s.updateAll (chosen.map f) = .ok next) :
    next = s.changed chosen f := by
  rw [← replaced_map h hchosen hf]
  exact (hok ▸ ends_updateAll s (chosen.map f)).of_ok

end

lemma Sound.changed (h : s.Sound) (chosen : List Task) (f : Task → Task) :
    (s.changed chosen f).Sound := by
  intro r hr
  obtain ⟨old, hold, rfl⟩ := List.mem_map.mp hr
  by_cases hmem : old.task ∈ chosen
  · rw [if_pos hmem, (h old hold).update_eq]
    exact Row.sound_ofTask _
  · rw [if_neg hmem]
    exact h old hold

/-- The children of a task are changed as they are chosen. -/
lemma children_changed (h : s.Sound) (id : TaskId) :
    (s.changed chosen f).children id =
      (s.children id).map fun t => if t ∈ chosen then t.changedBy f else t := by
  unfold children
  rw [tasks_changed h]
  refine childrenIn_map ?_ id
  intro t _
  split_ifs <;> rfl

/-- Changes that keep the structure of series keep the store well-formed. -/
lemma WellFormed.changed (h : s.WellFormed) (chosen : List Task) (hf : ∀ t, Keeps t (f t)) :
    (s.changed chosen f).WellFormed where
  sound := h.sound.changed chosen f
  structured := by
    rw [tasks_changed h.sound]
    refine h.structured.map ?_
    intro t _
    split_ifs
    · exact (hf t).changedBy
    · exact ⟨rfl, rfl, rfl, fun hrecur => hrecur⟩

/-- After a mutation of readable tasks everything is readable exactly when everything was and the
mutation writes regular instants. -/
lemma readable_changed_iff (h : s.Sound) (hchosen : ∀ t ∈ chosen, t ∈ s.tasks ∧ t.Readable)
    (hsome : chosen ≠ []) (m : Mutation) (now : Instant) :
    (∀ t ∈ (s.changed chosen (m.apply now)).tasks, t.Readable) ↔
      (∀ t ∈ s.tasks, t.Readable) ∧ ∀ i ∈ m.instants now, i ≤ .lastRegular := by
  rw [tasks_changed h, List.forall_mem_map]
  constructor
  · intro hall
    constructor
    · intro t ht
      by_cases hmem : t ∈ chosen
      · exact (hchosen t hmem).2
      · have hthis := hall t ht
        rw [if_neg hmem] at hthis
        exact hthis
    · obtain ⟨t, hmem⟩ := List.exists_mem_of_ne_nil chosen hsome
      obtain ⟨ht, hreadable⟩ := hchosen t hmem
      have hthis := hall t ht
      rw [if_pos hmem] at hthis
      exact (Task.readable_changedBy_iff hreadable m now).mp hthis
  · rintro ⟨hall, hregular⟩ t ht
    split_ifs
    · exact (Task.readable_changedBy_iff (hall t ht) m now).mpr hregular
    · exact hall t ht

end Store

end TaskSeries
