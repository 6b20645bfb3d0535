import Mathlib.Tactic.ByContra
import Mathlib.Tactic.SplitIfs
import TaskSeries.Proofs.Ends
import TaskSeries.Proofs.Series.Structure
import TaskSeries.Proofs.Store.Rows
import TaskSeries.Tracker.Lookup

/-!
# Reading a sound store

A store whose rows are all sound is a list of tasks. What is read from it is a part of that list in
some order (`Store.select_eq`), and reading fails for no other reason than a task that is not
readable.
-/

namespace TaskSeries

/-! ## Faults that point to a broken series -/

/-- The store refuses a write because of an id or a place in a series. -/
def StoreFault.breaksSeries : StoreFault → Bool
  | .idTaken | .maskTaken | .noParent => true
  | .emptied | .notStored _ | .unreadable | .unavailable | .readOnly => false

/-- The fault says that the structure of the series is broken, or would be. -/
def Fault.breaksSeries : Fault → Bool
  | .duplicateId _ | .duplicateMask _ _ => true
  | .store cause => cause.breaksSeries
  | _ => false

namespace Store

/-! ## The stored tasks -/

/-- The stored tasks in the order of their insertion. -/
def tasks (s : Store) : List Task := s.rows.map Row.task

/-- The occurrences of a parent in the order of their insertion. -/
def children (s : Store) (parent : TaskId) : List Task :=
  Series.childrenIn s.tasks parent

/-- Every row is as a command wrote it. -/
def Sound (s : Store) : Prop := ∀ r ∈ s.rows, r.Sound

variable {s : Store}

lemma mem_tasks_of_mem_rows {r : Row} (h : r ∈ s.rows) : r.task ∈ s.tasks :=
  List.mem_map_of_mem h

/-! ## Selections -/

/-- Sound rows read as their tasks when all of these are readable, and not at all otherwise. -/
lemma readAll_eq {rows : List Row} (h : ∀ r ∈ rows, r.Sound) :
    readAll rows = if ∀ t ∈ rows.map Row.task, t.Readable then .ok (rows.map Row.task)
      else .error .unreadable := by
  have hread : rows.mapM Row.read? =
      if ∀ t ∈ rows.map Row.task, t.Readable then some (rows.map Row.task) else none := by
    induction rows with
    | nil => rfl
    | cons r rows ih =>
      have hr : r.Sound := h r List.mem_cons_self
      rw [List.mapM_cons, ih fun r' hr' => h r' (List.mem_cons_of_mem r hr')]
      simp only [List.map_cons, List.forall_mem_cons]
      by_cases hreadable : r.task.Readable
      · rw [hr.read?_eq_some_iff.mpr ⟨hreadable, rfl⟩]
        by_cases hrest : ∀ t ∈ rows.map Row.task, t.Readable
        · rw [if_pos hrest, if_pos ⟨hreadable, hrest⟩]
          rfl
        · rw [if_neg hrest, if_neg fun hall => hrest hall.2]
          rfl
      · have hnone : r.read? = none := by
          rw [Option.eq_none_iff_forall_ne_some]
          exact fun t ht => hreadable (hr.read?_eq_some_iff.mp ht).1
        have hnot : ¬ (r.task.Readable ∧ ∀ t ∈ rows.map Row.task, t.Readable) :=
          fun hall => hreadable hall.1
        rw [hnone, if_neg hnot]
        rfl
  unfold readAll
  rw [hread]
  split_ifs <;> rfl

/-- A selection by a property of tasks gives the tasks with the property in order, when all of them
are readable. -/
lemma select_eq (hs : s.Sound) {p : Row → Bool} {q : Task → Bool} (le : Task → Task → Bool)
    (hpq : ∀ r ∈ s.rows, p r = q r.task) :
    s.select p le = if ∀ t ∈ s.tasks.filter q, t.Readable then
      .ok ((s.tasks.filter q).mergeSort le) else .error .unreadable := by
  have hrows : (s.rows.filter p).map Row.task = s.tasks.filter q := by
    unfold tasks
    rw [List.filter_map, List.filter_congr hpq]
    rfl
  unfold select
  rw [readAll_eq fun r hr => hs r (List.mem_filter.mp hr).1, hrows]
  split_ifs <;> rfl

/-- A query ends with the tasks that satisfy its condition, all of them readable, or with an unreadable
row. -/
lemma ends_select (hs : s.Sound) {p : Row → Bool} {q : Task → Bool} (le : Task → Task → Bool)
    (hpq : ∀ r ∈ s.rows, p r = q r.task) :
    Ends (fun l => l.Perm (s.tasks.filter q) ∧ ∀ t ∈ l, t.Readable) (· = .unreadable)
      (s.select p le) := by
  rw [select_eq hs le hpq]
  split_ifs with h
  · have hperm := List.mergeSort_perm (s.tasks.filter q) le
    exact .ok ⟨hperm, fun t ht => h t (hperm.mem_iff.mp ht)⟩
  · exact .error rfl

lemma ends_all (hs : s.Sound) :
    Ends (fun l => l.Perm s.tasks ∧ ∀ t ∈ l, t.Readable) (· = .unreadable) s.all := by
  have h := ends_select hs (q := fun _ => true) entryMaskLe fun _ _ => rfl
  rw [List.filter_eq_self.mpr fun _ _ => rfl] at h
  exact h

lemma ends_childrenOf (hs : s.Sound) (parent : TaskId) :
    Ends (fun l => l.Perm (s.children parent) ∧ ∀ t ∈ l, t.Readable) (· = .unreadable)
      (s.childrenOf parent) :=
  ends_select hs maskLe fun _ _ => rfl

lemma ends_activeParents (hs : s.Sound) :
    Ends (fun l => l.Perm (s.tasks.filter Task.isActiveParent) ∧ ∀ t ∈ l, t.Readable)
      (· = .unreadable) s.activeParents :=
  ends_select hs entryLe fun r hr => (hs r hr).isActiveParent_eq

/-- A selection is given exactly when all tasks in it are readable. -/
lemma exists_select_eq_ok_iff (hs : s.Sound) {p : Row → Bool} {q : Task → Bool}
    (le : Task → Task → Bool) (hpq : ∀ r ∈ s.rows, p r = q r.task) :
    (∃ l, s.select p le = .ok l) ↔ ∀ t ∈ s.tasks, q t = true → t.Readable := by
  rw [select_eq hs le hpq]
  simp only [List.mem_filter, and_imp]
  constructor
  · rintro ⟨l, h⟩
    by_contra hnot
    rw [if_neg hnot] at h
    exact absurd h nofun
  · intro h
    exact ⟨_, if_pos h⟩

/-- All tasks can be read exactly when each of them can. -/
lemma exists_all_eq_ok_iff (hs : s.Sound) : (∃ l, s.all = .ok l) ↔ ∀ t ∈ s.tasks, t.Readable := by
  have h := exists_select_eq_ok_iff hs (q := fun _ => true) entryMaskLe fun _ _ => rfl
  simp only [forall_const] at h
  exact h

lemma exists_childrenOf_eq_ok_iff (hs : s.Sound) (parent : TaskId) :
    (∃ l, s.childrenOf parent = .ok l) ↔ ∀ t ∈ s.children parent, t.Readable := by
  unfold children
  simp only [Series.mem_childrenIn, and_imp]
  have h := exists_select_eq_ok_iff hs (q := fun t => t.parent == some parent) maskLe fun _ _ => rfl
  simp only [beq_iff_eq] at h
  exact h

lemma exists_activeParents_eq_ok_iff (hs : s.Sound) :
    (∃ l, s.activeParents = .ok l) ↔ ∀ t ∈ s.tasks, t.isActiveParent = true → t.Readable :=
  exists_select_eq_ok_iff hs entryLe fun r hr => (hs r hr).isActiveParent_eq

/-! ## Single tasks -/

/-- A task that is found by its id is stored and readable. -/
lemma ends_get? (hs : s.Sound) (id : TaskId) :
    Ends (fun found => ∀ t, found = some t → t ∈ s.tasks ∧ t.Readable) (· = .unreadable)
      (s.get? id) := by
  unfold get?
  split
  · exact .ok fun t ht => absurd ht nofun
  · rename_i r hr
    have hmem := List.mem_of_find?_eq_some hr
    split
    · rename_i t ht
      refine .ok fun t' ht' => ?_
      obtain ⟨hreadable, htask⟩ := (hs r hmem).read?_eq_some_iff.mp ht
      rw [← Option.some.inj ht', ← htask]
      exact ⟨mem_tasks_of_mem_rows hmem, hreadable⟩
    · exact .error rfl

lemma ends_withStart (hs : s.Sound) (token : String) :
    Ends (fun l => ∀ t ∈ l, t ∈ s.tasks ∧ t.Readable) (· = .unreadable) (s.withStart token) := by
  unfold withStart
  split
  · exact .error rfl
  · have h := ends_select hs (q := fun t => t.id.hasStart token) entryLe fun _ _ => rfl
    refine h.mono fun l hl t ht => ?_
    exact ⟨(List.mem_filter.mp (hl.1.mem_iff.mp ht)).1, hl.2 t ht⟩

/-- The task that a text addresses is stored and readable; that none is found breaks nothing. -/
lemma ends_find (hs : s.Sound) (token : String) :
    Ends (fun t => t ∈ s.tasks ∧ t.Readable) (fun f => f.breaksSeries = false)
      (s.find token) := by
  unfold find
  dsimp only
  split
  · rename_i id hid
    have hget := ends_get? hs id
    split
    · rename_i f hf
      rw [hf] at hget
      rw [hget.of_error]
      exact .error rfl
    · exact .error rfl
    · rename_i t ht
      rw [ht] at hget
      exact .ok (hget.of_ok t rfl)
  · split
    · exact .error rfl
    · have hstart := ends_withStart hs (Text.trim token)
      split
      · rename_i f hf
        rw [hf] at hstart
        rw [hstart.of_error]
        exact .error rfl
      · exact .error rfl
      · rename_i t ht
        rw [ht] at hstart
        exact .ok (hstart.of_ok t List.mem_cons_self)
      · exact .error rfl

end Store

end TaskSeries
