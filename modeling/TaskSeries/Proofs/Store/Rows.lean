import TaskSeries.Proofs.Calendar.Millis
import TaskSeries.Series.Integrity
import TaskSeries.Store.Basic

/-!
# Rows as tasks

A row that was only ever written by commands is the row of its own task: `Row.Sound`. For such a row
everything the store asks of it can be asked of the task instead, and it reads exactly when no instant
of the task is later than the last regular one (`Row.Sound.read?_eq_some_iff`). An update of a sound
row is the row of a task again (`Row.Sound.update_eq`).
-/

namespace TaskSeries

open TaskSeries.Calendar

/-! ## Tasks as they are stored -/

/-- The instants of a task. -/
def Task.instants (t : Task) : List Instant :=
  t.entry :: t.modified :: (t.finished.toList ++ t.due.toList ++ t.expiry.toList)

/-- Every instant of the task comes back from the store. -/
def Task.Readable (t : Task) : Prop :=
  ∀ i ∈ t.instants, i ≤ Instant.lastRegular

instance (t : Task) : Decidable t.Readable :=
  inferInstanceAs (Decidable (∀ i ∈ t.instants, _))

/-- A task that takes the entry and the place in a series of the one before it. -/
def Task.inPlaceOf (new old : Task) : Task :=
  { new with
    entry := old.entry
    parent := old.parent
    mask := old.mask }

/-- What is stored does not change when it is stored again. -/
lemma Task.stored_stored (t : Task) : t.stored.stored = t.stored := by
  unfold Task.stored
  simp only [Instant.stored_stored, Option.map_map, Function.comp_def]

/-- A task comes back from the store exactly when its stored form does. -/
lemma Task.readable_stored_iff (t : Task) : t.stored.Readable ↔ t.Readable := by
  have hoption : ∀ o : Option Instant, (∀ i ∈ (o.map Instant.stored).toList, i ≤ .lastRegular) ↔
      ∀ i ∈ o.toList, i ≤ .lastRegular := by
    intro o
    cases o with
    | none => rfl
    | some i => simp [Instant.stored_le_lastRegular_iff]
  unfold Task.Readable Task.instants Task.stored
  simp only [List.forall_mem_cons, List.forall_mem_append, hoption,
    Instant.stored_le_lastRegular_iff]

namespace Row

/-! ## Instants out of range -/

/-- A column is not astray as long as its instant is no later than the last regular one. -/
lemma overflow_eq_nil_iff (c : Column) (i : Option Instant) :
    overflow c i = [] ↔ ∀ instant ∈ i.toList, instant ≤ Instant.lastRegular := by
  cases i with
  | none => simp [overflow]
  | some i =>
    have hnone := Instant.ofMillis?_toMillis_eq_none_iff i
    simp only [Option.toList_some, List.mem_singleton, forall_eq]
    show _ ↔ ¬ Instant.lastRegular < i
    rw [← hnone]
    unfold overflow
    cases h : Instant.ofMillis? i.toMillis <;> simp [h]

lemma mem_overflow {c : Column} {i : Option Instant} {x : Column × Content}
    (h : x ∈ overflow c i) : x.1 = c := by
  unfold overflow at h
  split at h
  · exact absurd h List.not_mem_nil
  · split at h
    · exact absurd h List.not_mem_nil
    · rw [List.mem_singleton.mp h]

lemma overflow_stored (c : Column) (i : Option Instant) :
    overflow c (i.map Instant.stored) = overflow c i := by
  cases i with
  | none => rfl
  | some i =>
    show overflow c (some i.stored) = overflow c (some i)
    simp only [overflow, Instant.toMillis_stored]

/-- An instant that is astray is so in its own column. -/
lemma filter_overflow (q : Column → Bool) (c : Column) (i : Option Instant) :
    (overflow c i).filter (fun (c, _) => q c) = if q c then overflow c i else [] := by
  cases hq : q c with
  | true =>
    rw [if_pos rfl, List.filter_eq_self]
    intro x hx
    show q x.1 = true
    rw [mem_overflow hx, hq]
  | false =>
    rw [if_neg Bool.false_ne_true, List.filter_eq_nil_iff]
    intro x hx
    show ¬ q x.1 = true
    rw [mem_overflow hx, hq]
    exact Bool.false_ne_true

/-! ## Sound rows -/

/-- The row is what its own task is written as. -/
def Sound (r : Row) : Prop := ofTask r.task = r

lemma ofTask_stored (t : Task) : ofTask t.stored = ofTask t := by
  unfold ofTask
  rw [Task.stored_stored]
  congr 1
  show overflow .entry ((some t.entry).map Instant.stored)
    ++ overflow .modified ((some t.modified).map Instant.stored)
    ++ overflow .finished (t.finished.map Instant.stored)
    ++ overflow .due (t.due.map Instant.stored) ++ overflow .expiry (t.expiry.map Instant.stored) = _
  simp only [overflow_stored]

/-- A row that was just written is sound. -/
lemma sound_ofTask (t : Task) : (ofTask t).Sound := ofTask_stored t

/-- No cell of a sound row holds anything else than an instant out of range. -/
lemma Sound.mem_stray {r : Row} (h : r.Sound) {x : Column × Content} (hx : x ∈ r.stray) :
    x.1 = .entry ∨ x.1 = .modified ∨ x.1 = .finished ∨ x.1 = .due ∨ x.1 = .expiry := by
  rw [← h] at hx
  simp only [ofTask, List.mem_append] at hx
  rcases hx with (((hx | hx) | hx) | hx) | hx
  · exact Or.inl (mem_overflow hx)
  · exact Or.inr (Or.inl (mem_overflow hx))
  · exact Or.inr (Or.inr (Or.inl (mem_overflow hx)))
  · exact Or.inr (Or.inr (Or.inr (Or.inl (mem_overflow hx))))
  · exact Or.inr (Or.inr (Or.inr (Or.inr (mem_overflow hx))))

/-- In a sound row no place, period or status is astray. -/
lemma Sound.strayIn_eq_none {r : Row} (h : r.Sound) {c : Column}
    (hc : c = .mask ∨ c = .recur ∨ c = .status) : r.strayIn c = none := by
  unfold strayIn
  rw [Option.map_eq_none_iff, List.find?_eq_none]
  intro x hx heq
  have hcolumn := h.mem_stray hx
  rw [eq_of_beq heq] at hcolumn
  rcases hc with rfl | rfl | rfl <;> simp at hcolumn

lemma Sound.stored_task {r : Row} (h : r.Sound) : r.task.stored = r.task :=
  congrArg Row.task h

/-- The place of a sound row is that of its task. -/
lemma Sound.place?_eq {r : Row} (h : r.Sound) :
    r.place? = (Integrity.place? r.task).map fun x => (x.1, .number x.2) := by
  unfold place? Integrity.place?
  rw [h.strayIn_eq_none (Or.inl rfl), Option.none_or]
  cases r.task.parent <;> cases r.task.mask <;> rfl

/-- A sound row defines a series that goes on exactly when its task does. -/
lemma Sound.isActiveParent_eq {r : Row} (h : r.Sound) :
    r.isActiveParent = r.task.isActiveParent := by
  unfold isActiveParent hasPeriod Task.isActiveParent Task.isRecurringParent
  rw [h.strayIn_eq_none (Or.inr (Or.inl rfl)), h.strayIn_eq_none (Or.inr (Or.inr rfl))]
  simp

/-- A sound row reads exactly when its task is readable, and reads as that task. -/
lemma Sound.read?_eq_some_iff {r : Row} (h : r.Sound) {t : Task} :
    r.read? = some t ↔ r.task.Readable ∧ r.task = t := by
  have hstray : r.stray = [] ↔ r.task.Readable := by
    rw [← congrArg Row.stray h]
    unfold Task.Readable Task.instants
    simp only [ofTask, List.append_eq_nil_iff, overflow_eq_nil_iff, List.forall_mem_cons,
      List.forall_mem_append, Option.toList_some]
    constructor
    · rintro ⟨⟨⟨⟨⟨hentry, -⟩, hmodified, -⟩, hfinished⟩, hdue⟩, hexpiry⟩
      exact ⟨hentry, hmodified, ⟨hfinished, hdue⟩, hexpiry⟩
    · rintro ⟨hentry, hmodified, ⟨hfinished, hdue⟩, hexpiry⟩
      exact ⟨⟨⟨⟨⟨hentry, by simp⟩, hmodified, by simp⟩, hfinished⟩, hdue⟩, hexpiry⟩
  unfold read?
  rw [← hstray]
  cases r.stray <;> simp

/-- An update of a sound row gives the row of the new task in the place of the old one. -/
lemma Sound.update_eq {r : Row} (h : r.Sound) (t : Task) :
    r.update t = ofTask (t.inPlaceOf r.task) := by
  have hentry : r.task.entry.stored = r.task.entry := congrArg Task.entry h.stored_task
  -- of the cells that no update writes, only the entry can be out of range
  have hold : r.stray.filter (fun (c, _) => c.isFixed) = overflow .entry (some r.task.entry) := by
    rw [← congrArg Row.stray h]
    simp only [ofTask, List.filter_append, filter_overflow Column.isFixed]
    simp [Column.isFixed]
  have hnew : (ofTask t).stray.filter (fun (c, _) => !c.isFixed) =
      overflow .modified (some t.modified) ++ overflow .finished t.finished
        ++ overflow .due t.due ++ overflow .expiry t.expiry := by
    simp only [ofTask, List.filter_append, filter_overflow fun c => !c.isFixed]
    simp [Column.isFixed]
  unfold update
  simp only [hold, hnew]
  unfold ofTask Task.inPlaceOf Task.stored
  simp only [hentry, List.append_assoc]

end Row

end TaskSeries
