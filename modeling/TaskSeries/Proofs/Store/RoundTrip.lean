import TaskSeries.Proofs.Store.Cells
import TaskSeries.Proofs.Store.Writing

/-!
# What is written is read back

An inserted task is read back with all its fields, the instants rounded down to the millisecond, and
an updated one with all but its entry and its place in a series, which stay. No other row changes. A
query gives the tasks that satisfy its condition. All of this holds in every state of the store
(`Store.roundTrip`), with one reservation: milliseconds have no leap seconds, so that an instant in
one is read back as an instant in the second behind it.
-/

namespace TaskSeries

open TaskSeries.Calendar

/-- The task with each of its instants rounded down to the millisecond, where an instant in a leap
second counts as the same part of the second behind it. -/
def Task.rounded (t : Task) : Task :=
  { t with
    entry := t.entry.withoutLeap.cutToMillis
    modified := t.modified.withoutLeap.cutToMillis
    finished := t.finished.map fun i => i.withoutLeap.cutToMillis
    due := t.due.map fun i => i.withoutLeap.cutToMillis
    expiry := t.expiry.map fun i => i.withoutLeap.cutToMillis }

/-- The instants that an update writes. -/
def Task.updatedInstants (t : Task) : List Instant :=
  t.modified :: (t.finished.toList ++ t.due.toList ++ t.expiry.toList)

lemma map_stored_eq {o : Option Instant} (h : ∀ i ∈ o.toList, i ≤ .lastRegular) :
    o.map Instant.stored = o.map fun i => i.withoutLeap.cutToMillis := by
  cases o with
  | none => rfl
  | some i => exact congrArg some (Instant.stored_eq_cutToMillis (h i List.mem_cons_self))

/-- What an update writes into a row in the place of an old task. -/
lemma Task.stored_inPlaceOf_eq {t old : Task}
    (h : ∀ i ∈ t.updatedInstants, i ≤ .lastRegular) :
    t.stored.inPlaceOf old = t.rounded.inPlaceOf old := by
  unfold updatedInstants at h
  simp only [List.forall_mem_cons, List.forall_mem_append] at h
  obtain ⟨hmodified, ⟨hfinished, hdue⟩, hexpiry⟩ := h
  unfold stored rounded inPlaceOf
  simp only [Instant.stored_eq_cutToMillis hmodified, map_stored_eq hfinished, map_stored_eq hdue,
    map_stored_eq hexpiry]

/-- What is stored of a readable task is the task with its instants rounded. -/
lemma Task.stored_eq_rounded {t : Task} (h : t.Readable) : t.stored = t.rounded := by
  have hentry : t.stored.entry = t.rounded.entry :=
    Instant.stored_eq_cutToMillis (h t.entry List.mem_cons_self)
  have hrest : t.stored.inPlaceOf t = t.rounded.inPlaceOf t :=
    stored_inPlaceOf_eq fun i hi => h i (List.mem_cons_of_mem _ hi)
  calc t.stored = { t.stored.inPlaceOf t with entry := t.stored.entry } := rfl
    _ = { t.rounded.inPlaceOf t with entry := t.rounded.entry } := by rw [hrest, hentry]
    _ = t.rounded := rfl

namespace Row

/-- An inserted row reads as its task with the instants rounded. -/
lemma read?_ofTask {t : Task} (h : t.Readable) : (ofTask t).read? = some t.rounded := by
  rw [(sound_ofTask t).read?_eq_some_iff]
  exact ⟨t.readable_stored_iff.mpr h, Task.stored_eq_rounded h⟩

/-- A row whose entry and mask index read, and into which regular instants are written, reads as the
new task in the place of the old one. -/
lemma read?_update {r : Row} {t : Task} (hentry : r.strayIn .entry = none)
    (hmask : r.strayIn .mask = none) (h : ∀ i ∈ t.updatedInstants, i ≤ .lastRegular) :
    (r.update t).read? = some (t.rounded.inPlaceOf r.task) := by
  have hold : r.stray.filter (·.1.isFixed) = [] := by
    rw [List.filter_eq_nil_iff]
    rintro ⟨c, x⟩ hx hfixed
    have hnone : ∀ c', r.strayIn c' = none → c ≠ c' := by
      intro c' hc' heq
      rw [strayIn, Option.map_eq_none_iff, List.find?_eq_none] at hc'
      exact hc' _ hx (beq_iff_eq.mpr heq)
    cases c with
    | entry => exact hnone .entry hentry rfl
    | mask => exact hnone .mask hmask rfl
    | _ => exact absurd hfixed Bool.false_ne_true
  have hnew : (ofTask t).stray.filter (fun cell => !cell.1.isFixed) = [] := by
    unfold Task.updatedInstants at h
    simp only [List.forall_mem_cons, List.forall_mem_append] at h
    obtain ⟨hmodified, ⟨hfinished, hdue⟩, hexpiry⟩ := h
    have hmodified' := (overflow_eq_nil_iff .modified (some t.modified)).mpr (by simpa using hmodified)
    have hfinished' := (overflow_eq_nil_iff .finished t.finished).mpr hfinished
    have hdue' := (overflow_eq_nil_iff .due t.due).mpr hdue
    have hexpiry' := (overflow_eq_nil_iff .expiry t.expiry).mpr hexpiry
    simp only [ofTask, List.filter_append, filter_overflow fun c => !c.isFixed, hmodified', hfinished',
      hdue', hexpiry']
    rfl
  have hstray : (r.update t).stray = [] := by
    unfold update
    dsimp only
    rw [hold, hnew, List.append_nil]
  unfold read?
  rw [hstray, List.isEmpty_nil, if_pos rfl]
  exact congrArg some (Task.stored_inPlaceOf_eq h)

end Row

namespace Store

variable {s s' : Store} {t : Task}

/-! ## Single rows -/

lemma get?_congr {id : TaskId}
    (h : s'.rows.find? (·.id == id) = s.rows.find? (·.id == id)) : s'.get? id = s.get? id := by
  unfold get?
  rw [h]

lemma get?_of_find? {id : TaskId} {r : Row} (hfind : s.rows.find? (·.id == id) = some r)
    (hread : r.read? = some t) : s.get? id = .ok (some t) := by
  unfold get?
  rw [hfind]
  dsimp only
  rw [hread]

/-- A task that was inserted stands behind the others and has an id of its own. -/
lemma insert_eq_ok (h : s.insert t = .ok s') :
    s' = { s with rows := s.rows ++ [Row.ofTask t] } ∧ ∀ r ∈ s.rows, r.id ≠ t.id := by
  unfold insert insertAll at h
  obtain ⟨-, -, hmap⟩ := bind_eq_ok.mp h
  obtain ⟨taken, htaken, hrows⟩ := map_eq_ok.mp hmap
  rw [List.map_singleton, List.foldlM_cons] at htaken
  obtain ⟨_, hadmit, -⟩ := bind_eq_ok.mp htaken
  refine ⟨hrows.symm, fun r hr hid => ?_⟩
  have hmem : (Row.ofTask t).id ∈ s.rows.map Row.id := by
    rw [← show r.id = (Row.ofTask t).id from hid]
    exact List.mem_map_of_mem hr
  unfold Taken.admit at hadmit
  rw [if_pos] at hadmit
  · exact absurd hadmit nofun
  · rw [Std.HashSet.contains_iff_mem, (Taken.ofRows_of s.rows).ids]
    exact hmem

/-- A task can be inserted in a store that may be written when its id and its place are new and its
parent is stored. -/
lemma insert_of_new (hwrite : s.readOnly = false) (hid : t.id ∉ s.rows.map Row.id)
    (hplace : ∀ place, (Row.ofTask t).place? = some place → place ∉ s.rows.filterMap Row.place?)
    (hparent : ∀ p, t.parent = some p → p ∈ s.rows.map Row.id) :
    s.insert t = .ok { s with rows := s.rows ++ [Row.ofTask t] } := by
  have hadmit := (Taken.ofRows_of s.rows).admit_eq (r := Row.ofTask t) hid hplace hparent
  unfold insert insertAll
  rw [permit_eq_ok hwrite]
  show Except.map _ ([Row.ofTask t].foldlM Taken.admit (Taken.ofRows s.rows)) = _
  rw [List.foldlM_cons, hadmit]
  rfl

/-- How an update ends. -/
lemma update_eq (s : Store) (t : Task) :
    s.update t = if s.readOnly then .error .readOnly
      else if t.id ∈ s.rows.map Row.id then
        .ok { s with rows := s.rows.map fun r => if r.id = t.id then r.update t else r }
      else .error (.notStored t.id) := by
  have hmissing : s.missing? [t] = if t.id ∈ s.rows.map Row.id then none else some t.id := by
    unfold missing?
    have hids := mem_foldl_insert_id s.rows t.id
    rw [← Std.HashSet.contains_iff_mem] at hids
    split_ifs with hmem
    · simp [hids.mpr hmem]
    · simp [mt hids.mp hmem]
  unfold update updateAll
  cases hwrite : s.readOnly with
  | true =>
    unfold permit
    rw [hwrite]
    rfl
  | false =>
    rw [permit_eq_ok hwrite, hmissing, if_neg Bool.false_ne_true]
    split_ifs with hmem
    · refine congrArg Except.ok ?_
      congr 1
      refine List.map_congr_left fun r _ => ?_
      rw [get?_foldl_insert]
      unfold lastWith
      by_cases hid : r.id = t.id
      · simp [hid]
      · simp [hid, Ne.symm hid]
    · rfl

/-! ## Queries -/

/-- The stored tasks that can be read. -/
def legible (s : Store) : List Task := s.rows.filterMap Row.read?

/-- Rows that can all be read are read one by one. -/
lemma mapM_read? {rows : List Row} (h : ∀ r ∈ rows, r.read?.isSome = true) :
    rows.mapM Row.read? = some (rows.filterMap Row.read?) := by
  induction rows with
  | nil => rfl
  | cons r rows ih =>
    obtain ⟨t, ht⟩ := Option.isSome_iff_exists.mp (h r List.mem_cons_self)
    rw [List.mapM_cons, ht, ih fun r' hr' => h r' (List.mem_cons_of_mem r hr'),
      List.filterMap_cons_some ht]
    rfl

/-- A query whose condition is one on tasks gives the tasks that satisfy it, if the rows that it takes
can be read. -/
lemma exists_select_perm {p : Row → Bool} {q : Task → Bool} (le : Task → Task → Bool)
    (hpq : ∀ r ∈ s.rows, ∀ t, r.read? = some t → p r = q t)
    (hread : ∀ r ∈ s.rows, p r = true → r.read?.isSome = true) :
    ∃ l, s.select p le = .ok l ∧ l.Perm (s.legible.filter q) := by
  have hfilter : (s.rows.filter p).filterMap Row.read? = s.legible.filter q := by
    unfold legible
    rw [List.filterMap_filter, List.filter_filterMap]
    refine List.filterMap_congr fun r hr => ?_
    cases ht : r.read? with
    | none => simp
    | some t =>
      rw [Option.filter_some, hpq r hr t ht]
  have hall : ∀ r ∈ s.rows.filter p, r.read?.isSome = true := by
    intro r hr
    obtain ⟨hmem, hp⟩ := List.mem_filter.mp hr
    exact hread r hmem hp
  refine ⟨(s.legible.filter q).mergeSort le, ?_, List.mergeSort_perm _ _⟩
  unfold select readAll
  rw [mapM_read? hall, hfilter]
  rfl

/-- A row that can be read defines a series that goes on when its task does. -/
lemma isActiveParent_of_read? {r : Row} (h : r.read? = some t) :
    r.isActiveParent = t.isActiveParent := by
  unfold Row.read? at h
  split_ifs at h with hstray
  have htask := Option.some.inj h
  have hnone : ∀ c, r.strayIn c = none := by
    intro c
    rw [Row.strayIn, List.isEmpty_iff.mp hstray]
    rfl
  unfold Row.isActiveParent Row.hasPeriod
  rw [hnone, hnone, ← htask]
  simp [Task.isActiveParent, Task.isRecurringParent]

lemma task_of_read? {r : Row} (h : r.read? = some t) : r.task = t := by
  unfold Row.read? at h
  split_ifs at h
  exact Option.some.inj h

/-! ## Writing and reading -/

/-- What the insertion of a task makes of a store. -/
structure AfterInsert (s : Store) (t : Task) (s' : Store) : Prop where
  /-- All columns are bound in a row behind the others. -/
  cells : s'.rows.map Row.cell = s.rows.map Row.cell ++ [t.cell]
  /-- The task is read back if no instant of it is behind the end of the range. -/
  back : t.Readable → s'.get? t.id = .ok (some t.rounded)
  /-- Every other task is read as before. -/
  others : ∀ id, id ≠ t.id → s'.get? id = s.get? id

/-- What the update of a task makes of a store. -/
structure AfterUpdate (s : Store) (t : Task) (s' : Store) : Prop where
  /-- Ten columns of the row with the id are bound. -/
  cells : s'.rows.map Row.cell = s.rows.map fun r f =>
    if r.id = t.id ∧ f.isUpdated = true then t.cell f else r.cell f
  /-- The task is read back with what stays of the old row, if this reads and no instant that was
  written is behind the end of the range. -/
  back : ∃ old, s.rows.find? (·.id == t.id) = some old ∧
    (old.strayIn .entry = none → old.strayIn .mask = none →
      (∀ i ∈ t.updatedInstants, i ≤ .lastRegular) →
      s'.get? t.id = .ok (some (t.rounded.inPlaceOf old.task)))
  /-- Every other row stays, and every other task is read as before. -/
  rows : s'.rows.filter (·.id != t.id) = s.rows.filter (·.id != t.id)
  others : ∀ id, id ≠ t.id → s'.get? id = s.get? id

/-- A task that could be inserted is read back, and nothing else changes. -/
lemma afterInsert (h : s.insert t = .ok s') : s.AfterInsert t s' := by
  obtain ⟨rfl, hnew⟩ := insert_eq_ok h
  have hnone : s.rows.find? (·.id == t.id) = none := by
    rw [List.find?_eq_none]
    exact fun r hr hid => hnew r hr (eq_of_beq hid)
  refine ⟨?_, fun hreadable => ?_, fun id hid => get?_congr ?_⟩
  · rw [List.map_append, List.map_singleton, Row.cell_ofTask]
  · refine get?_of_find? (r := Row.ofTask t) ?_ (Row.read?_ofTask hreadable)
    rw [List.find?_append, hnone, Option.none_or, List.find?_singleton]
    exact if_pos (beq_self_eq_true t.id)
  · rw [List.find?_append, List.find?_singleton, if_neg, Option.or_none]
    exact fun heq => hid (eq_of_beq heq).symm

/-- A task that could be updated is read back in the place of the old one, and nothing else changes. -/
lemma afterUpdate (h : s.update t = .ok s') : s.AfterUpdate t s' := by
  rw [update_eq] at h
  split_ifs at h with hwrite hmem
  have hs' := (Except.ok.inj h).symm
  have hids : ∀ r : Row, (if r.id = t.id then r.update t else r).id = r.id := by
    intro r
    split_ifs with hid
    · exact hid.symm
    · rfl
  have hfind : ∀ id, s'.rows.find? (·.id == id) =
      (s.rows.find? (·.id == id)).map fun r => if r.id = t.id then r.update t else r := by
    intro id
    rw [hs', List.find?_map]
    congr 2
    funext r
    exact congrArg (· == id) (hids r)
  refine ⟨?_, ?_, ?_, fun id hid => get?_congr ?_⟩
  · rw [hs', List.map_map]
    refine List.map_congr_left fun r _ => funext fun f => ?_
    by_cases hid : r.id = t.id
    · simp [hid, Row.cell_update hid.symm]
    · simp [hid]
  · cases hold : s.rows.find? (·.id == t.id) with
    | none =>
      obtain ⟨r, hr, hid⟩ := List.mem_map.mp hmem
      exact absurd (beq_iff_eq.mpr hid) (List.find?_eq_none.mp hold r hr)
    | some old =>
      refine ⟨old, rfl, fun hentry hmask hregular => ?_⟩
      have hid : old.id = t.id := eq_of_beq (List.find?_some hold :)
      refine get?_of_find? ?_ (Row.read?_update hentry hmask hregular)
      rw [hfind, hold, Option.map_some, if_pos hid]
  · have hother : ∀ r ∈ s.rows.filter (·.id != t.id), (if r.id = t.id then r.update t else r) = r := by
      intro r hr
      exact if_neg (bne_iff_ne.mp (List.mem_filter.mp hr).2)
    have hsame : ((·.id != t.id) ∘ fun r => if r.id = t.id then r.update t else r) =
        fun r : Row => r.id != t.id := funext fun r => congrArg (· != t.id) (hids r)
    rw [hs', List.filter_map, hsame, List.map_congr_left hother, List.map_id']
  · rw [hfind]
    cases hold : s.rows.find? (·.id == id) with
    | none => rfl
    | some old =>
      have hold' : old.id = id := eq_of_beq (List.find?_some hold :)
      rw [Option.map_some, if_neg fun heq => hid (hold'.symm.trans heq)]

/-- The store gives back what was written to it, in every state. After an insertion the task is read
back with its instants rounded, each to the latest one in whole milliseconds that is not later; after an
update it is read back in the place of the old one; nothing else has changed. An update fails for no
other reason than that the task is not stored or nothing may be written. A query gives the tasks with a
given parent, or the parents whose series go on; which rows these are is told by their cells. -/
theorem roundTrip (s : Store) :
    (∀ r ∈ s.rows, r.Sound → r.task.Fits → Task.ofCells? r.cell = r.read?) ∧
    (∀ r ∈ s.rows, r.ToldByCells) ∧
    (∀ i : Instant, i.cutToMillis.nano % 1000000 = 0 ∧ i.cutToMillis ≤ i ∧
      ∀ j : Instant, j.nano % 1000000 = 0 → j ≤ i → j ≤ i.cutToMillis) ∧
    (∀ t s', s.insert t = .ok s' → s.AfterInsert t s') ∧
    (∀ t s', s.update t = .ok s' → s.AfterUpdate t s') ∧
    (∀ t, (∃ fault, s.update t = .error fault) ↔
      s.readOnly = true ∨ ∀ r ∈ s.rows, r.id ≠ t.id) ∧
    (∀ parent, (∀ r ∈ s.rows, r.task.parent = some parent → r.read?.isSome = true) →
      ∃ l, s.childrenOf parent = .ok l ∧ l.Perm (s.legible.filter (·.parent == some parent))) ∧
    ((∀ r ∈ s.rows, r.isActiveParent = true → r.read?.isSome = true) →
      ∃ l, s.activeParents = .ok l ∧ l.Perm (s.legible.filter Task.isActiveParent)) := by
  refine ⟨fun r _ => Row.Sound.ofCells?_cell, fun r _ => r.toldByCells, Instant.cutToMillis_spec,
    fun t s' => afterInsert, fun t s' => afterUpdate, fun t => ?_, fun parent hread => ?_,
    fun hread => ?_⟩
  · have hmem : t.id ∉ s.rows.map Row.id ↔ ∀ r ∈ s.rows, r.id ≠ t.id := by
      simp only [List.mem_map, not_exists, not_and, ne_eq]
    rw [update_eq, ← hmem]
    split_ifs with hwrite hstored
    · exact iff_of_true ⟨_, rfl⟩ (Or.inl hwrite)
    · refine iff_of_false (fun ⟨_, hfault⟩ => absurd hfault nofun) ?_
      rintro (h | h)
      · exact hwrite h
      · exact h hstored
    · exact iff_of_true ⟨_, rfl⟩ (Or.inr hstored)
  · refine exists_select_perm maskLe (fun r _ t ht => ?_) fun r hr hp => hread r hr (eq_of_beq hp)
    rw [task_of_read? ht]
  · exact exists_select_perm entryLe (fun r _ t ht => isActiveParent_of_read? ht) hread

end Store

/-- Watering the plants, every day from the last nanosecond before 1970 on. -/
def watering : Task :=
  { Task.fresh (TaskId.drawn 1 1) "water plants" .epoch with
    due := some ⟨-1, 999999999, by decide⟩
    recur := some (.calendar .day 1 false) }

/-- Its first occurrence. -/
def firstWatering : Task :=
  { watering with
    id := TaskId.drawn 1 2
    parent := some watering.id
    mask := some 0 }

/-- A store in which the plants are to be watered. -/
def wateringStore : Store := { rows := [Row.ofTask watering] }

namespace Store

/-- The occurrence is read back with its due date rounded to the last millisecond before 1970, and so is
the parent when it is no longer to be done; both queries find it. -/
theorem roundTrip_watering :
    (Task.ofCells? (Row.ofTask watering).cell = (Row.ofTask watering).read?) ∧
    ((Row.ofTask watering).cell .id ≠ some (.text firstWatering.id.text) ∧
      (Row.ofTask watering).cell .parent = none) ∧
    (⟨-1, 999000000, by decide⟩ : Instant) ≤ (⟨-1, 999999999, by decide⟩ : Instant).cutToMillis ∧
    (∃ s', wateringStore.insert firstWatering = .ok s' ∧
      s'.get? firstWatering.id = .ok (some firstWatering.rounded) ∧
      s'.get? watering.id = wateringStore.get? watering.id) ∧
    (∃ s', wateringStore.update { watering with status := .deleted } = .ok s' ∧
      s'.get? watering.id = .ok (some { watering.rounded with status := .deleted })) ∧
    (∃ fault, wateringStore.update firstWatering = .error fault) ∧
    (∃ l, wateringStore.childrenOf watering.id = .ok l ∧ l.Perm []) ∧
    (∃ l, wateringStore.activeParents = .ok l ∧ l.Perm [watering.rounded]) ∧
    watering.rounded.due = some ⟨-1, 999000000, by decide⟩ := by
  obtain ⟨hcells, htold, hcut, hinsert, hupdate, hfails, hchildren, hparents⟩ := roundTrip wateringStore
  have hrow : Row.ofTask watering ∈ wateringStore.rows := List.mem_cons_self
  have hactive := ((htold _ hrow).isActiveParent_iff (Row.sound_ofTask watering)).mp rfl
  have hinserted : wateringStore.insert firstWatering =
      .ok { wateringStore with rows := wateringStore.rows ++ [Row.ofTask firstWatering] } :=
    insert_of_new rfl (by decide) (fun _ _ => List.not_mem_nil) (by decide)
  have hupdated := update_eq wateringStore { watering with status := .deleted }
  rw [if_neg (by decide), if_pos (by decide)] at hupdated
  obtain ⟨old, hold, hback⟩ := (hupdate _ _ hupdated).back
  refine ⟨hcells _ hrow (Row.sound_ofTask watering) ⟨by decide, by decide⟩,
    ⟨mt ((htold _ hrow).id_iff _).mpr (by decide), hactive.2.1⟩,
    (hcut _).2.2 _ (by decide) (by decide), ⟨_, hinserted, ?_, ?_⟩, ⟨_, hupdated, ?_⟩,
    (hfails firstWatering).mpr (Or.inr (by decide)), ?_, ?_, by decide⟩
  · exact (hinsert _ _ hinserted).back (by decide)
  · exact (hinsert _ _ hinserted).others watering.id (by decide)
  · have hwatering : Row.ofTask watering = old := Option.some.inj hold
    rw [← hwatering] at hback
    exact hback (by decide) (by decide) (by decide)
  · obtain ⟨l, hl, hperm⟩ := hchildren watering.id (by decide)
    exact ⟨l, hl, hperm⟩
  · obtain ⟨l, hl, hperm⟩ := hparents (by decide)
    exact ⟨l, hl, hperm⟩

/-- A task that is due in the leap second at the end of 2016. -/
def leapTask : Task :=
  { Task.fresh (TaskId.drawn 1 1) "task" .epoch with
    due := some ⟨1483228799, 1000000000, by decide⟩ }

/-- An instant in a leap second is not read back as itself, although it is in whole milliseconds: it comes
back as the beginning of 2017. -/
theorem get?_insert_leapTask :
    ∃ s', ({} : Store).insert leapTask = .ok s' ∧
      s'.get? leapTask.id = .ok (some { leapTask with due := some ⟨1483228800, 0, by decide⟩ }) ∧
      s'.get? leapTask.id ≠ .ok (some { leapTask with
        entry := leapTask.entry.cutToMillis
        modified := leapTask.modified.cutToMillis
        due := leapTask.due.map Instant.cutToMillis }) := by
  have hinserted : ({} : Store).insert leapTask = .ok { rows := [Row.ofTask leapTask] } :=
    insert_of_new rfl List.not_mem_nil (fun _ _ => List.not_mem_nil) (by decide)
  refine ⟨_, hinserted, rfl, fun h => ?_⟩
  have hdue := congrArg Task.due (Option.some.inj (Except.ok.inj h))
  exact absurd hdue (by decide)

end Store

end TaskSeries
