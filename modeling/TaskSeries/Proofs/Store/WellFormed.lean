import TaskSeries.Proofs.Series.Integrity
import TaskSeries.Proofs.Store.Writing
import TaskSeries.Proofs.Task.Draw

/-!
# Well-formed stores

A store is *well-formed* when its rows are sound and its tasks are structured. Occurrences that are
added to a series with new ids, tasks that are entered, and changes written back keep a store
well-formed. Ids are *fresh* for a store when the next ones to be drawn are new
(`Store.Fresh`).
-/

namespace TaskSeries

open TaskSeries.Calendar TaskSeries.Series

/-! ## What changes of a task keep -/

lemma Series.keeps_stored (t : Task) : Keeps t t.stored := ⟨rfl, rfl, rfl, fun h => h⟩

/-- Edits and deletions keep what the structure of series rests on. -/
lemma Series.keeps_apply (m : Mutation) (now : Instant) (t : Task) : Keeps t (m.apply now t) := by
  cases m with
  | edit e =>
    refine ⟨rfl, rfl, rfl, fun h => ?_⟩
    show (e.recur <|> t.recur).isSome = true
    cases e.recur with
    | none => exact h
    | some p => rfl
  | delete => exact ⟨rfl, rfl, rfl, fun h => h⟩

namespace Store

/-- The rows are sound and the tasks structured. -/
structure WellFormed (s : Store) : Prop where
  sound : s.Sound
  structured : Structured s.tasks

lemma wellFormed_empty : WellFormed {} where
  sound := fun _ hr => absurd hr List.not_mem_nil
  structured := structured_nil

variable {s : Store}

lemma Sound.stored_eq (h : s.Sound) {t : Task} (ht : t ∈ s.tasks) : t.stored = t := by
  obtain ⟨r, hr, rfl⟩ := List.mem_map.mp ht
  exact (h r hr).stored_task

lemma Sound.map_stored (h : s.Sound) : s.tasks.map Task.stored = s.tasks := by
  rw [List.map_congr_left fun t ht => h.stored_eq ht, List.map_id']

/-- Tasks that are added stand behind the others, as they are stored. -/
lemma Sound.tasks_added_eq (h : s.Sound) (made : List Task) :
    (s.added made).tasks = (s.tasks ++ made).map Task.stored := by
  rw [tasks_added, List.map_append, h.map_stored]

/-- Of tasks of one id, one is stored. -/
lemma WellFormed.eq_of_id {t u : Task} (h : s.WellFormed) (ht : t ∈ s.tasks) (hu : u ∈ s.tasks)
    (hid : t.id = u.id) : t = u :=
  List.inj_on_of_nodup_map h.structured.ids ht hu hid

/-! ## Writes -/

/-- New tasks that keep the structure can be stored, and the store stays well-formed. -/
lemma WellFormed.ends_insertDrawn {made : List Task} (h : s.WellFormed)
    (hmade : Structured (s.tasks ++ made))
    (hparents : ∀ t ∈ made, ∀ p, t.parent = some p → p ∈ s.tasks.map Task.id) :
    Ends (· = s.added made) (fun f => f.breaksSeries = false) (s.insertDrawn made) := by
  refine (Store.ends_insertDrawn h.sound hmade.ids hmade.places hparents).mono_error ?_
  rintro f rfl
  rfl

/-- A store stays well-formed when tasks are added that fit into the structure. -/
lemma WellFormed.added {made : List Task} (h : s.WellFormed)
    (hmade : Structured (s.tasks ++ made)) : (s.added made).WellFormed where
  sound := h.sound.added made
  structured := by
    rw [h.sound.tasks_added_eq]
    exact hmade.map fun t _ => keeps_stored t

/-- Stored tasks that were changed in place can be written back. -/
lemma WellFormed.replaced {changed : List Task} (h : s.WellFormed)
    (hchanged : ∀ c ∈ changed, ∃ t ∈ s.tasks, Keeps t c) :
    (s.replaced (lastWith changed)).WellFormed where
  sound := h.sound.replaced _
  structured := by
    rw [tasks_replaced h.sound]
    refine h.structured.map fun t ht => ?_
    unfold afterReplacing
    cases hnew : lastWith changed t.id with
    | none => exact ⟨rfl, rfl, rfl, fun hrecur => hrecur⟩
    | some c =>
      have hmem : c ∈ changed := List.mem_reverse.mp (List.mem_of_find?_eq_some hnew)
      have hid : c.id = t.id := by
        have := List.find?_some hnew
        rwa [beq_iff_eq] at this
      obtain ⟨old, hold, hkeeps⟩ := hchanged c hmem
      rw [h.eq_of_id hold ht (hkeeps.id.symm.trans hid)] at hkeeps
      exact ⟨hid, rfl, rfl, hkeeps.recur⟩

/-- Stored tasks that were changed in place leave the store well-formed when they are written back. -/
lemma WellFormed.ends_updateAll {changed : List Task} (h : s.WellFormed)
    (hchanged : ∀ c ∈ changed, ∃ t ∈ s.tasks, Keeps t c) :
    Ends (fun s => s.WellFormed) (fun f => f.breaksSeries = false) (s.updateAll changed) := by
  refine (Store.ends_updateAll s changed).mono ?_
  rintro next rfl
  exact h.replaced hchanged

/-! ## Reads -/

/-- Reading fails for tasks that are not readable, and this breaks no series. -/
lemma ends_of_unreadable {q : List Task → Prop} {x : Except StoreFault (List Task)}
    (h : Ends (fun l => q l ∧ ∀ t ∈ l, t.Readable) (· = .unreadable) x) :
    Ends q (fun f => f.breaksSeries = false) x := by
  refine (h.mono fun l hl => hl.1).mono_error ?_
  rintro f rfl
  rfl

/-- In a well-formed store all tasks are read, or reading fails without breaking a series. -/
lemma WellFormed.ends_all (h : s.WellFormed) :
    Ends (fun l => l.Perm s.tasks) (fun f => f.breaksSeries = false) s.all :=
  ends_of_unreadable (Store.ends_all h.sound)

lemma WellFormed.ends_childrenOf (h : s.WellFormed) (parent : TaskId) :
    Ends (fun l => l.Perm (s.children parent)) (fun f => f.breaksSeries = false)
      (s.childrenOf parent) :=
  ends_of_unreadable (Store.ends_childrenOf h.sound parent)

lemma WellFormed.ends_activeParents (h : s.WellFormed) :
    Ends (fun l => l.Perm (s.tasks.filter Task.isActiveParent)) (fun f => f.breaksSeries = false)
      s.activeParents :=
  ends_of_unreadable (Store.ends_activeParents h.sound)

/-- The check of a well-formed store finds no id and no place taken twice. -/
lemma WellFormed.ends_check (h : s.WellFormed) :
    Ends (fun _ => True) (fun f => f.breaksSeries = false) s.check := by
  unfold check
  have hall : Ends (fun l => l.Perm s.tasks) (fun f => f.breaksSeries = false)
      (s.all.mapError Fault.store) := h.ends_all.mapError
  refine hall.bind fun l hl => ?_
  rw [Integrity.check_eq_ok h.structured hl]
  exact .ok trivial

/-! ## Fresh ids -/

/-- The next `n` ids that are drawn are pairwise distinct, and none of them is stored. -/
def Fresh (s : Store) (draw : Nat → TaskId) (n : Nat) : Prop :=
  (s.tasks.map Task.id ++ (List.range n).map fun i => draw (s.issued + i)).Nodup

variable {draw : Nat → TaskId} {m n : Nat}

lemma Fresh.mono (h : s.Fresh draw n) (hle : m ≤ n) : s.Fresh draw m := by
  obtain ⟨k, rfl⟩ := Nat.exists_eq_add_of_le hle
  unfold Fresh at h ⊢
  rw [List.range_add, List.map_append, ← List.append_assoc] at h
  exact (List.nodup_append.mp h).1

/-- Ids are fresh for a store all of whose ids were drawn from the same seed before. -/
lemma fresh_of_map_id_eq {seed : Nat}
    (hids : s.tasks.map Task.id = (List.range s.issued).map (TaskId.drawn seed))
    (hn : s.issued + n ≤ Text.twoTo 122) : s.Fresh (TaskId.drawn seed) n := by
  have hall := TaskId.nodup_map_drawn seed hn
  rw [List.range_add, List.map_append, List.map_map, ← hids] at hall
  exact hall

/-- Ids that were fresh are used up by the tasks that were stored with them. -/
lemma Fresh.added {made : List Task} (h : s.Fresh draw (made.length + n))
    (hmade : made.map Task.id = (List.range made.length).map fun i => draw (s.issued + i)) :
    (s.added made).Fresh draw n := by
  have hids : (s.added made).tasks.map Task.id = s.tasks.map Task.id ++ made.map Task.id := by
    rw [tasks_added, List.map_append, List.map_map]
    rfl
  unfold Fresh at h ⊢
  rw [List.range_add, List.map_append, List.map_map, ← List.append_assoc, ← hmade] at h
  rw [hids]
  have hnext : ((fun i => draw (s.issued + i)) ∘ fun i => made.length + i) =
      fun i => draw ((s.added made).issued + i) := by
    funext i
    show draw (s.issued + (made.length + i)) = draw (s.issued + made.length + i)
    rw [Nat.add_assoc]
  rw [← hnext]
  exact h

/-- A task with a fresh id that is no occurrence can be entered. -/
lemma WellFormed.enter {task : Task} (h : s.WellFormed) (hfresh : s.Fresh draw 1)
    (hid : task.id = draw s.issued) (hparent : task.parent = none) (hmask : task.mask = none) :
    Structured (s.tasks ++ [task]) := by
  unfold Fresh at hfresh
  rw [List.range_one, List.map_singleton, Nat.add_zero, ← hid, ← List.concat_eq_append,
    List.nodup_concat] at hfresh
  exact h.structured.enter hfresh.1 hparent hmask

end Store

end TaskSeries
