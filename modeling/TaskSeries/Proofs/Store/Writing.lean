import Mathlib.Data.List.Induction
import Mathlib.Data.List.Nodup
import TaskSeries.Proofs.Store.Reading
import TaskSeries.Tracker.Trigger

/-!
# Writing to a sound store

Tasks are inserted behind the stored ones (`Store.added`) and updated where they stand
(`Store.replaced`). The store takes tasks in whenever their ids and places are new and their parents
are there (`Store.ends_insertDrawn`), and it has taken them in only with new ids
(`Store.insertDrawn_eq_ok`).
-/

namespace TaskSeries

namespace Store

/-! ## What is taken -/

/-- The ids and the places that are taken are those of the rows. -/
structure Taken.Of (taken : Taken) (rows : List Row) : Prop where
  ids : ∀ id, id ∈ taken.ids ↔ id ∈ rows.map Row.id
  places : ∀ place, place ∈ taken.places ↔ place ∈ rows.filterMap Row.place?

lemma Taken.Of.add {taken : Taken} {rows : List Row} (h : taken.Of rows) (r : Row) :
    (taken.add r).Of (rows ++ [r]) where
  ids id := by
    show id ∈ taken.ids.insert r.id ↔ _
    rw [Std.HashSet.mem_insert, h.ids, List.map_append, List.mem_append, List.map_singleton,
      List.mem_singleton, beq_iff_eq, or_comm, eq_comm]
  places place := by
    rw [List.filterMap_append, List.mem_append, ← h.places]
    unfold Taken.add
    cases hr : r.place? with
    | none => simp [hr]
    | some new =>
      rw [Std.HashSet.mem_insert, beq_iff_eq, or_comm, eq_comm]
      simp [hr]

/-- What rows take is gathered from them. -/
lemma Taken.ofRows_of (rows : List Row) : (Taken.ofRows rows).Of rows := by
  induction rows using List.reverseRecOn with
  | nil => exact ⟨fun id => by simp [Taken.ofRows], fun place => by simp [Taken.ofRows]⟩
  | append_singleton rows r ih =>
    unfold Taken.ofRows at ih ⊢
    rw [List.foldl_append]
    exact ih.add r

/-- A row is admitted behind the others when its id and its place are new and its parent is there. -/
lemma Taken.Of.admit_eq {taken : Taken} {rows : List Row} (h : taken.Of rows) {r : Row}
    (hid : r.id ∉ rows.map Row.id)
    (hplace : ∀ place, r.place? = some place → place ∉ rows.filterMap Row.place?)
    (hparent : ∀ p, r.task.parent = some p → p ∈ rows.map Row.id) :
    taken.admit r = .ok (taken.add r) := by
  have hids : ¬ taken.ids.contains r.id = true := by
    rw [Std.HashSet.contains_iff_mem, h.ids]
    exact hid
  have hplaces : ¬ r.place?.any taken.places.contains = true := by
    rw [Option.any_eq_true]
    rintro ⟨place, hr, htaken⟩
    rw [Std.HashSet.contains_iff_mem, h.places] at htaken
    exact hplace place hr htaken
  have hparents : ¬ r.task.parent.any (fun p => !(p == r.id || taken.ids.contains p)) = true := by
    rw [Option.any_eq_true]
    rintro ⟨p, hr, hmissing⟩
    have hstored := hparent p hr
    rw [← h.ids, ← Std.HashSet.contains_iff_mem] at hstored
    rw [hstored, Bool.or_true] at hmissing
    exact absurd hmissing (by decide)
  unfold Taken.admit
  rw [if_neg hids, if_neg hplaces, if_neg hparents]

/-- Rows are admitted one after another when their ids and places are new and their parents are there
from the beginning. -/
lemma exists_foldlM_admit_eq_ok {taken : Taken} {rows new : List Row} (h : taken.Of rows)
    (hids : ((rows ++ new).map Row.id).Nodup) (hplaces : ((rows ++ new).filterMap Row.place?).Nodup)
    (hparents : ∀ r ∈ new, ∀ p, r.task.parent = some p → p ∈ rows.map Row.id) :
    ∃ taken', new.foldlM Taken.admit taken = .ok taken' := by
  -- an admitted row joins the taken ones, so that what is new stays new for the rest
  induction new generalizing taken rows with
  | nil => exact ⟨taken, rfl⟩
  | cons r new ih =>
    have hsplit : rows ++ r :: new = (rows ++ [r]) ++ new := List.append_cons rows r new
    have hid : r.id ∉ rows.map Row.id := by
      rw [List.map_append, List.map_cons, List.nodup_middle, List.nodup_cons] at hids
      exact fun hmem => hids.1 (List.mem_append_left _ hmem)
    have hplace : ∀ place, r.place? = some place → place ∉ rows.filterMap Row.place? := by
      intro place hr
      rw [List.filterMap_append, List.filterMap_cons, hr] at hplaces
      rw [List.nodup_middle, List.nodup_cons] at hplaces
      exact fun hmem => hplaces.1 (List.mem_append_left _ hmem)
    have hadmit := h.admit_eq hid hplace (hparents r List.mem_cons_self)
    rw [List.foldlM_cons, hadmit]
    rw [hsplit] at hids hplaces
    refine ih (h.add r) hids hplaces fun r' hr' p hp => ?_
    rw [List.map_append]
    exact List.mem_append_left _ (hparents r' (List.mem_cons_of_mem r hr') p hp)

/-- Rows that were admitted have new ids. -/
lemma nodup_ids_of_foldlM_admit {taken taken' : Taken} {rows new : List Row} (h : taken.Of rows)
    (hids : (rows.map Row.id).Nodup) (hok : new.foldlM Taken.admit taken = .ok taken') :
    ((rows ++ new).map Row.id).Nodup := by
  induction new generalizing taken rows with
  | nil =>
    rw [List.append_nil]
    exact hids
  | cons r new ih =>
    rw [List.foldlM_cons] at hok
    obtain ⟨next, hadmit, hrest⟩ := bind_eq_ok.mp hok
    unfold Taken.admit at hadmit
    split_ifs at hadmit with hid hplace hparent
    rw [Std.HashSet.contains_iff_mem, h.ids] at hid
    rw [List.append_cons]
    rw [← Except.ok.inj hadmit] at hrest
    refine ih (h.add r) ?_ hrest
    rw [List.map_append, List.map_singleton, ← List.concat_eq_append, List.nodup_concat]
    exact ⟨hid, hids⟩

/-! ## Inserting -/

/-- The store with tasks stored behind the others, their ids counted as generated. -/
def added (s : Store) (made : List Task) : Store :=
  { s with
    rows := s.rows ++ made.map Row.ofTask
    issued := s.issued + made.length }

variable {s : Store} {made : List Task}

lemma tasks_added : (s.added made).tasks = s.tasks ++ made.map Task.stored := by
  unfold tasks added
  rw [List.map_append, List.map_map]
  rfl

lemma Sound.added (h : s.Sound) (made : List Task) : (s.added made).Sound := by
  intro r hr
  rcases List.mem_append.mp hr with hold | hnew
  · exact h r hold
  · obtain ⟨t, -, rfl⟩ := List.mem_map.mp hnew
    exact Row.sound_ofTask t

lemma map_id_append (s : Store) (made : List Task) :
    (s.rows ++ made.map Row.ofTask).map Row.id = (s.tasks ++ made).map Task.id := by
  unfold tasks
  rw [List.map_append, List.map_append, List.map_map, List.map_map]
  rfl

/-- The places of sound rows are those of their tasks. -/
lemma filterMap_place? {rows : List Row} (h : ∀ r ∈ rows, r.Sound) :
    rows.filterMap Row.place? = ((rows.map Row.task).filterMap Integrity.place?).map
      fun x => (x.1, .number x.2) := by
  rw [List.filterMap_map, List.map_filterMap]
  exact List.filterMap_congr fun r hr => (h r hr).place?_eq

/-- Rows that are added to a sound store double no place, if their tasks do not. -/
lemma nodup_places_append (h : s.Sound)
    (hplaces : ((s.tasks ++ made).filterMap Integrity.place?).Nodup) :
    ((s.rows ++ made.map Row.ofTask).filterMap Row.place?).Nodup := by
  have htasks : ((s.rows ++ made.map Row.ofTask).map Row.task).filterMap Integrity.place? =
      (s.tasks ++ made).filterMap Integrity.place? := by
    unfold tasks
    rw [List.map_append, List.filterMap_append, List.filterMap_append]
    simp only [List.filterMap_map]
    rfl
  have hrows := filterMap_place? (h.added made)
  rw [show (s.added made).rows = s.rows ++ made.map Row.ofTask from rfl, htasks] at hrows
  rw [hrows]
  refine hplaces.map fun x y hxy => ?_
  obtain ⟨hparent, hmask⟩ := Prod.mk.inj hxy
  have hindex : (x.2 : Int) = y.2 := Content.number.inj hmask
  exact Prod.ext hparent (by omega)

lemma permit_nil (s : Store) : s.permit [] = .ok () := by
  unfold permit
  rw [List.isEmpty_nil, Bool.not_true, Bool.and_false]
  rfl

lemma permit_eq_ok (h : s.readOnly = false) (tasks : List Task) : s.permit tasks = .ok () := by
  unfold permit
  rw [h, Bool.false_and]
  rfl

/-- Writing is refused only by a store that is read-only. -/
lemma ends_permit (s : Store) (tasks : List Task) :
    Ends (fun _ => True) (· = .readOnly) (s.permit tasks) := by
  unfold permit
  split_ifs
  · exact .error rfl
  · exact .ok trivial

section
variable (h : s.Sound) (hids : ((s.tasks ++ made).map Task.id).Nodup)
  (hplaces : ((s.tasks ++ made).filterMap Integrity.place?).Nodup)
  (hparents : ∀ t ∈ made, ∀ p, t.parent = some p → p ∈ s.tasks.map Task.id)
include h hids hplaces hparents

/-- Tasks go into the store when their ids and places are new and their parents are stored, provided
that the store may be written. -/
lemma insertDrawn_eq :
    s.insertDrawn made = (s.permit made).map fun _ => s.added made := by
  rw [← map_id_append] at hids
  have hstored : ∀ r ∈ made.map Row.ofTask, ∀ p, r.task.parent = some p →
      p ∈ s.rows.map Row.id := by
    intro r hr p hp
    obtain ⟨t, ht, rfl⟩ := List.mem_map.mp hr
    have hmem := hparents t ht p hp
    unfold tasks at hmem
    rwa [List.map_map] at hmem
  obtain ⟨taken, htaken⟩ := exists_foldlM_admit_eq_ok (Taken.ofRows_of s.rows) hids
    (nodup_places_append h hplaces) hstored
  -- the rows pass all checks, so that nothing but the permission decides
  unfold insertDrawn insertAll
  cases s.permit made with
  | error f => rfl
  | ok _ =>
    show ((Except.map _ ((made.map Row.ofTask).foldlM Taken.admit _)).map _ : Except _ _) = _
    rw [htaken]
    rfl

/-- Tasks with new ids and places are inserted, unless the store is read-only. -/
lemma ends_insertDrawn : Ends (· = s.added made) (· = .readOnly) (s.insertDrawn made) := by
  rw [insertDrawn_eq h hids hplaces hparents]
  exact ((ends_permit s made).mono fun _ _ => rfl).map

end

/-- Tasks that went into the store have new ids. -/
lemma insertDrawn_eq_ok {next : Store} (hids : (s.tasks.map Task.id).Nodup)
    (hok : s.insertDrawn made = .ok next) :
    next = s.added made ∧ ((s.tasks ++ made).map Task.id).Nodup := by
  unfold insertDrawn insertAll at hok
  obtain ⟨inserted, hinserted, hnext⟩ := map_eq_ok.mp hok
  obtain ⟨-, -, hmap⟩ := bind_eq_ok.mp hinserted
  obtain ⟨taken, htaken, hrows⟩ := map_eq_ok.mp hmap
  constructor
  · rw [← hnext, ← hrows]
    rfl
  · rw [← map_id_append]
    refine nodup_ids_of_foldlM_admit (Taken.ofRows_of s.rows) ?_ htaken
    unfold tasks at hids
    rwa [List.map_map] at hids

lemma insertDrawn_nil (s : Store) : s.insertDrawn [] = .ok s := by
  unfold insertDrawn insertAll
  rw [permit_nil]
  show Except.ok { s with rows := s.rows ++ [], issued := s.issued + 0 } = _
  rw [List.append_nil]
  rfl

/-! ## Updating -/

/-- The last of the tasks that has an id. -/
def lastWith (changed : List Task) (id : TaskId) : Option Task :=
  changed.reverse.find? (·.id == id)

/-- The store with every task replaced for which there is a new one. -/
def replaced (s : Store) (new : TaskId → Option Task) : Store :=
  { s with rows := s.rows.map fun r => (new r.id).elim r r.update }

/-- Of several versions of a task the last one counts. -/
lemma get?_foldl_insert (changed : List Task) (id : TaskId) :
    (changed.foldl (fun (new : Std.HashMap TaskId Task) t => new.insert t.id t) ∅).get? id =
      lastWith changed id := by
  induction changed using List.reverseRecOn with
  | nil => simp [lastWith]
  | append_singleton changed t ih =>
    rw [List.foldl_append, List.foldl_cons, List.foldl_nil, Std.HashMap.get?_insert, ih]
    unfold lastWith
    rw [List.reverse_concat, List.find?_cons]
    cases t.id == id <;> rfl

lemma mem_foldl_insert_id (rows : List Row) (id : TaskId) :
    id ∈ rows.foldl (fun (ids : Std.HashSet TaskId) r => ids.insert r.id) ∅ ↔
      id ∈ rows.map Row.id := by
  induction rows using List.reverseRecOn with
  | nil => simp
  | append_singleton rows r ih =>
    rw [List.foldl_append, List.foldl_cons, List.foldl_nil, Std.HashSet.mem_insert, ih,
      List.map_append, List.mem_append, List.map_singleton, List.mem_singleton, beq_iff_eq, or_comm,
      eq_comm]

/-- Stored tasks can be updated in a store that may be written. -/
lemma updateAll_eq_ok {changed : List Task} (hwrite : s.readOnly = false)
    (hstored : ∀ t ∈ changed, t.id ∈ s.tasks.map Task.id) :
    s.updateAll changed = .ok (s.replaced (lastWith changed)) := by
  have hmissing : s.missing? changed = none := by
    unfold missing?
    rw [Option.map_eq_none_iff, List.find?_eq_none]
    intro t ht
    have hmem := hstored t ht
    unfold tasks at hmem
    rw [List.map_map] at hmem
    rw [Bool.not_eq_true', Bool.not_eq_false, Std.HashSet.contains_iff_mem, mem_foldl_insert_id]
    exact hmem
  unfold updateAll
  rw [permit_eq_ok hwrite, hmissing]
  refine congrArg Except.ok ?_
  unfold replaced
  simp only [get?_foldl_insert]

/-- An update replaces the tasks by their last versions, or fails without breaking a series. -/
lemma ends_updateAll (s : Store) (changed : List Task) :
    Ends (· = s.replaced (lastWith changed)) (fun f => f.breaksSeries = false)
      (s.updateAll changed) := by
  unfold updateAll
  refine ((ends_permit s changed).mono_error fun f hf => ?_).bind fun _ _ => ?_
  · rw [hf]
    rfl
  · split
    · exact .error rfl
    · refine .ok ?_
      unfold replaced
      simp only [get?_foldl_insert]

lemma updateAll_nil (s : Store) : s.updateAll [] = .ok s := by
  unfold updateAll
  rw [permit_nil]
  show Except.ok { s with rows := s.rows.map fun r : Row =>
    ((∅ : Std.HashMap TaskId Task).get? r.id).elim r r.update } = _
  simp

/-- A task as a replacement leaves it. -/
def afterReplacing (new : TaskId → Option Task) (t : Task) : Task :=
  (new t.id).elim t fun t' => (t'.inPlaceOf t).stored

/-- Each task is replaced by its new version, if there is one. -/
lemma tasks_replaced (h : s.Sound) (new : TaskId → Option Task) :
    (s.replaced new).tasks = s.tasks.map (afterReplacing new) := by
  unfold tasks replaced
  rw [List.map_map, List.map_map]
  refine List.map_congr_left fun r hr => ?_
  show ((new r.id).elim r r.update).task = afterReplacing new r.task
  unfold afterReplacing
  show _ = (new r.id).elim _ _
  cases new r.id with
  | none => rfl
  | some t =>
    show (r.update t).task = _
    rw [(h r hr).update_eq]
    rfl

lemma Sound.replaced (h : s.Sound) (new : TaskId → Option Task) : (s.replaced new).Sound := by
  intro r hr
  obtain ⟨old, hold, rfl⟩ := List.mem_map.mp hr
  cases new old.id with
  | none => exact h old hold
  | some t =>
    show (old.update t).Sound
    rw [(h old hold).update_eq]
    exact Row.sound_ofTask _

end Store

end TaskSeries
