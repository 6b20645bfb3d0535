import Mathlib.Data.List.Nodup
import TaskSeries.Proofs.Series.Added
import TaskSeries.Series.Integrity

/-!
# The structure of series

Tasks are *structured* when no id comes twice, every occurrence has a place in the series of a parent
that is there, the places of every series are taken in order, without a gap and from the first one on,
and none of them is the greatest one of 32 bits. Tasks stay structured when they change without moving
(`Structured.map`), when a task that is no occurrence is entered (`Structured.enter`), and when the next
occurrences of a series are added and fit (`Structured.addOccurrences`).
-/

namespace TaskSeries.Series

open TaskSeries.Calendar

/-- The occurrences of a parent among tasks. -/
def childrenIn (tasks : List Task) (parent : TaskId) : List Task :=
  tasks.filter (·.parent == some parent)

/-- The task with the id defines a series. -/
def DefinesSeries (tasks : List Task) (id : TaskId) : Prop :=
  ∃ t ∈ tasks, t.id = id ∧ t.recur.isSome ∧ t.parent = none

/-- The tasks form series. -/
structure Structured (tasks : List Task) : Prop where
  ids : (tasks.map Task.id).Nodup
  /-- A task has a place exactly when it has a parent. -/
  placed : ∀ t ∈ tasks, t.mask.isSome = t.parent.isSome
  parents : ∀ t ∈ tasks, ∀ p, t.parent = some p → DefinesSeries tasks p
  /-- The occurrences of every parent have the places from zero on, in the order of the tasks. -/
  dense : ∀ p, (childrenIn tasks p).map Task.mask =
    (List.range (childrenIn tasks p).length).map some
  /-- Behind every occurrence there is a place to count on to. -/
  counted : ∀ t ∈ tasks, ∀ m, t.mask = some m → m < lastPlace

/-- The children of a task are the tasks that name it as their parent. -/
lemma mem_childrenIn {tasks : List Task} {p : TaskId} {t : Task} :
    t ∈ childrenIn tasks p ↔ t ∈ tasks ∧ t.parent = some p := by
  unfold childrenIn
  rw [List.mem_filter, beq_iff_eq]

lemma childrenIn_append (tasks made : List Task) (p : TaskId) :
    childrenIn (tasks ++ made) p = childrenIn tasks p ++ childrenIn made p :=
  List.filter_append _ _

lemma childrenIn_eq_self {tasks : List Task} {p : TaskId} (h : ∀ t ∈ tasks, t.parent = some p) :
    childrenIn tasks p = tasks := by
  unfold childrenIn
  rw [List.filter_eq_self]
  exact fun t ht => beq_iff_eq.mpr (h t ht)

lemma childrenIn_eq_nil {tasks : List Task} {p : TaskId} (h : ∀ t ∈ tasks, t.parent ≠ some p) :
    childrenIn tasks p = [] := by
  unfold childrenIn
  rw [List.filter_eq_nil_iff]
  exact fun t ht heq => h t ht (beq_iff_eq.mp heq)

/-- A change that leaves the parents alone changes the occurrences of each. -/
lemma childrenIn_map {f : Task → Task} {tasks : List Task}
    (hf : ∀ t ∈ tasks, (f t).parent = t.parent) (p : TaskId) :
    childrenIn (tasks.map f) p = (childrenIn tasks p).map f := by
  unfold childrenIn
  rw [List.filter_map]
  congr 1
  exact List.filter_congr fun t ht => by simp [hf t ht]

lemma structured_nil : Structured [] where
  ids := List.nodup_nil
  placed := fun _ ht => absurd ht List.not_mem_nil
  parents := fun _ ht => absurd ht List.not_mem_nil
  dense := fun _ => rfl
  counted := fun _ ht => absurd ht List.not_mem_nil

/-! ## Changes in place -/

/-- A task after a change that does not move it: it has its id and its place, and a period if it had
one. -/
structure Keeps (old new : Task) : Prop where
  id : new.id = old.id
  parent : new.parent = old.parent
  mask : new.mask = old.mask
  recur : old.recur.isSome → new.recur.isSome

/-- Changes that keep what the structure rests on keep the structure. -/
lemma Structured.map {tasks : List Task} (h : Structured tasks) {f : Task → Task}
    (hf : ∀ t ∈ tasks, Keeps t (f t)) : Structured (tasks.map f) where
  ids := by
    have hsame : tasks.map (Task.id ∘ f) = tasks.map Task.id :=
      List.map_congr_left fun t ht => (hf t ht).id
    rw [List.map_map, hsame]
    exact h.ids
  placed := by
    intro t ht
    obtain ⟨old, hold, rfl⟩ := List.mem_map.mp ht
    rw [(hf old hold).mask, (hf old hold).parent]
    exact h.placed old hold
  parents := by
    intro t ht p hp
    obtain ⟨old, hold, rfl⟩ := List.mem_map.mp ht
    rw [(hf old hold).parent] at hp
    obtain ⟨q, hq, hid, hrecur, hparent⟩ := h.parents old hold p hp
    have hkeeps := hf q hq
    exact ⟨f q, List.mem_map_of_mem hq, hkeeps.id.trans hid, hkeeps.recur hrecur,
      hkeeps.parent.trans hparent⟩
  dense := by
    intro p
    rw [childrenIn_map (fun t ht => (hf t ht).parent), List.length_map, List.map_map, ← h.dense p]
    exact List.map_congr_left fun t ht => (hf t (mem_childrenIn.mp ht).1).mask
  counted := by
    intro t ht m hm
    obtain ⟨old, hold, rfl⟩ := List.mem_map.mp ht
    exact h.counted old hold m ((hf old hold).mask.symm.trans hm)

/-! ## New tasks -/

/-- New tasks keep the structure when their ids are new and they take the next places of series that
are there. -/
lemma Structured.append {tasks made : List Task} (h : Structured tasks)
    (hids : ((tasks ++ made).map Task.id).Nodup)
    (hplaced : ∀ t ∈ made, t.mask.isSome = t.parent.isSome)
    (hparents : ∀ t ∈ made, ∀ p, t.parent = some p → DefinesSeries tasks p)
    (hdense : ∀ p, (childrenIn made p).map Task.mask =
      (List.range (childrenIn made p).length).map fun i => some ((childrenIn tasks p).length + i))
    (hcounted : ∀ t ∈ made, ∀ m, t.mask = some m → m < lastPlace) :
    Structured (tasks ++ made) where
  ids := hids
  placed := by
    intro t ht
    rcases List.mem_append.mp ht with hold | hnew
    · exact h.placed t hold
    · exact hplaced t hnew
  parents := by
    intro t ht p hp
    have hseries : DefinesSeries tasks p := by
      rcases List.mem_append.mp ht with hold | hnew
      · exact h.parents t hold p hp
      · exact hparents t hnew p hp
    obtain ⟨q, hq, hdefines⟩ := hseries
    exact ⟨q, List.mem_append_left _ hq, hdefines⟩
  dense := by
    intro p
    rw [childrenIn_append, List.map_append, List.length_append, h.dense p, hdense p, List.range_add,
      List.map_append, List.map_map]
    rfl
  counted := List.forall_mem_append.mpr ⟨h.counted, hcounted⟩

/-- A task that is no occurrence is entered. -/
lemma Structured.enter {tasks : List Task} (h : Structured tasks) {t : Task}
    (hid : t.id ∉ tasks.map Task.id) (hparent : t.parent = none) (hmask : t.mask = none) :
    Structured (tasks ++ [t]) := by
  have hnone : ∀ p, childrenIn [t] p = [] := fun p => childrenIn_eq_nil fun u hu => by
    rw [List.mem_singleton.mp hu, hparent]
    exact nofun
  refine h.append ?_ ?_ ?_ ?_ ?_
  · rw [List.map_append, List.map_singleton, ← List.concat_eq_append, List.nodup_concat]
    exact ⟨hid, h.ids⟩
  · intro u hu
    rw [List.mem_singleton.mp hu, hparent, hmask]
    rfl
  · intro u hu p hp
    rw [List.mem_singleton.mp hu, hparent] at hp
    exact absurd hp nofun
  · intro p
    rw [hnone]
    rfl
  · intro u hu m hm
    rw [List.mem_singleton.mp hu, hmask] at hm
    exact absurd hm nofun

/-! ## The places of a series -/

section
variable {tasks : List Task} (h : Structured tasks) {p : TaskId}
include h

/-- The places of a series are the numbers up to its length. -/
lemma Structured.filterMap_mask (p : TaskId) :
    (childrenIn tasks p).filterMap Task.mask = List.range (childrenIn tasks p).length := by
  calc (childrenIn tasks p).filterMap Task.mask
      = ((childrenIn tasks p).map Task.mask).filterMap id := by rw [List.filterMap_map]; rfl
    _ = ((List.range (childrenIn tasks p).length).map some).filterMap id := by rw [h.dense p]
    _ = List.range (childrenIn tasks p).length := by
        rw [List.filterMap_map]
        exact List.filterMap_some

/-- The next free place of a series is the number of its occurrences. -/
lemma Structured.nextMask_eq {children : List Task} (hperm : children.Perm (childrenIn tasks p)) :
    nextMask children = (childrenIn tasks p).length := by
  have hmask := h.filterMap_mask p
  rw [nextMask_perm hperm]
  apply nextMask_eq_of_bounds
  · intro t ht m hm
    have hmem : m ∈ (childrenIn tasks p).filterMap Task.mask := List.mem_filterMap.mpr ⟨t, ht, hm⟩
    rw [hmask] at hmem
    exact List.mem_range.mp hmem
  · by_cases hzero : (childrenIn tasks p).length = 0
    · exact Or.inl hzero
    · right
      rw [← List.mem_filterMap, hmask, List.mem_range]
      omega

/-- The occurrences of one parent have different places. -/
lemma Structured.eq_of_mask {t u : Task} (ht : t ∈ childrenIn tasks p) (hu : u ∈ childrenIn tasks p)
    (hmask : t.mask = u.mask) : t = u := by
  have hnodup : ((childrenIn tasks p).map Task.mask).Nodup := by
    rw [h.dense p]
    exact List.nodup_range.map fun _ _ => Option.some.inj
  exact List.inj_on_of_nodup_map hnodup ht hu hmask

/-- No place of any series is taken twice. -/
lemma Structured.places : (tasks.filterMap Integrity.place?).Nodup := by
  rw [List.nodup_iff_count_le_one]
  rintro ⟨p, m⟩
  -- a place of the series of `p` is taken as often as an occurrence of `p` has it
  have hcount : (tasks.filterMap Integrity.place?).count (p, m) =
      ((childrenIn tasks p).filterMap Task.mask).count m := by
    unfold List.count childrenIn
    rw [List.countP_filterMap, List.countP_filterMap, List.countP_filter]
    refine List.countP_congr fun t _ => ?_
    unfold Integrity.place?
    cases t.parent <;> cases t.mask <;> simp [and_comm]
  rw [hcount, h.filterMap_mask]
  exact List.nodup_iff_count_le_one.mp List.nodup_range m

end

/-! ## New occurrences -/

section
variable {parent : Task} {now : Instant} {draw : Nat → TaskId} {start : Nat} {dues : List Instant}

lemma map_mask_occurrences :
    (occurrences parent now draw start dues).map Task.mask =
      (List.range dues.length).map fun i => some (start + i) := by
  unfold occurrences
  rw [List.map_map, List.range_eq_range', ← List.zipIdx_map_snd 0 dues, List.map_map]
  rfl

/-- New occurrences are children of their parent. -/
lemma childrenIn_occurrences_self :
    childrenIn (occurrences parent now draw start dues) parent.id =
      occurrences parent now draw start dues := by
  refine childrenIn_eq_self fun t ht => ?_
  obtain ⟨i, due, -, rfl⟩ := mem_occurrences ht
  rfl

/-- They are children of no other task. -/
lemma childrenIn_occurrences_of_ne {p : TaskId} (hp : p ≠ parent.id) :
    childrenIn (occurrences parent now draw start dues) p = [] := by
  refine childrenIn_eq_nil fun t ht => ?_
  obtain ⟨i, due, -, rfl⟩ := mem_occurrences ht
  exact fun heq => hp (Option.some.inj heq).symm

/-- The next occurrences of a series are added. -/
lemma Structured.addOccurrences {tasks children : List Task} (h : Structured tasks)
    (hparent : DefinesSeries tasks parent.id) (hperm : children.Perm (childrenIn tasks parent.id))
    (hids : ((tasks ++ occurrences parent now draw (nextMask children) dues).map Task.id).Nodup)
    (hfits : nextMask children + dues.length ≤ lastPlace) :
    Structured (tasks ++ occurrences parent now draw (nextMask children) dues) := by
  rw [h.nextMask_eq hperm] at hids hfits ⊢
  refine h.append hids ?_ ?_ ?_ ?_
  · intro t ht
    obtain ⟨i, due, -, rfl⟩ := mem_occurrences ht
    rfl
  · intro t ht p hp
    obtain ⟨i, due, -, rfl⟩ := mem_occurrences ht
    rw [← Option.some.inj hp]
    exact hparent
  · intro p
    by_cases hp : p = parent.id
    · subst hp
      rw [childrenIn_occurrences_self, map_mask_occurrences, length_occurrences]
    · rw [childrenIn_occurrences_of_ne hp]
      rfl
  · intro t ht m hm
    obtain ⟨i, due, hi, rfl⟩ := mem_occurrences ht
    have hlen : i < dues.length := (List.getElem?_eq_some_iff.mp hi).1
    have heq : (childrenIn tasks parent.id).length + i = m := Option.some.inj hm
    omega

end

end TaskSeries.Series
