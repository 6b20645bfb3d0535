import TaskSeries.Proofs.Tracker.Propagation

/-!
# Recurring definitions and their due dates

A recurring task is entered with a due date, from which its series begins. An edit may still give a
period to a task that has no due date, or clear the due date of a definition; the series of such a task
never begins. Nothing else has this effect: as long as no edit does it, every definition has a due date,
and the next command changes this exactly when it is such an edit (`dated_of_reachable`).
`Tracker.stranded_by_period` shows one.
-/

namespace TaskSeries

open TaskSeries.Calendar TaskSeries.Series

/-! ## Tasks with the due date they need -/

/-- The task has a due date if it defines a series. -/
def Task.Dated (t : Task) : Prop :=
  t.isRecurringParent = true → t.due.isSome = true

instance (t : Task) : Decidable t.Dated :=
  inferInstanceAs (Decidable (_ → _))

/-- Whether a task has the due date it needs can be told from three of its fields. -/
lemma Task.dated_congr {t u : Task} (hrecur : u.recur = t.recur) (hparent : u.parent = t.parent)
    (hdue : u.due.isSome = t.due.isSome) : u.Dated ↔ t.Dated := by
  unfold Task.Dated Task.isRecurringParent
  rw [hrecur, hparent, hdue]

lemma Task.dated_of_parent {t : Task} {p : TaskId} (h : t.parent = some p) : t.Dated := by
  intro hparent
  unfold Task.isRecurringParent at hparent
  rw [h, Bool.and_eq_true] at hparent
  exact absurd hparent.2 Bool.false_ne_true

lemma Task.dated_stored_iff (t : Task) : t.stored.Dated ↔ t.Dated :=
  dated_congr rfl rfl Option.isSome_map

lemma Task.dated_changedBy_iff {f : Task → Task} {t : Task} (h : (f t).parent = t.parent) :
    (t.changedBy f).Dated ↔ (f t).Dated :=
  dated_congr rfl h.symm Option.isSome_map

/-- Expiry leaves tasks dated. -/
lemma Task.dated_afterExpiry {t : Task} (h : t.Dated) (settings : RecurrenceSettings)
    (now : Instant) : (t.afterExpiry settings now).Dated := by
  unfold Task.afterExpiry
  split_ifs
  · exact (dated_stored_iff _).mpr h
  · exact h

/-- A task is not entered with a period and without a due date. -/
lemma Fields.dated_of_newTask {f : Fields} {id : TaskId} {description : String} {now : Instant}
    {task : Task} (h : f.newTask id description now = .ok task) : task.Dated := by
  unfold newTask at h
  split at h
  · obtain ⟨recur, -, h⟩ := bind_eq_ok.mp h
    obtain ⟨due, -, h⟩ := bind_eq_ok.mp h
    obtain ⟨expiry, -, h⟩ := bind_eq_ok.mp h
    split_ifs at h with hmissing
    rw [← Except.ok.inj h]
    intro hparent
    unfold Task.isRecurringParent at hparent
    by_contra hnone
    apply hmissing
    rw [Bool.and_eq_true] at hparent ⊢
    exact ⟨hparent.1, by simpa using hnone⟩
  · exact absurd h nofun

namespace Store

/-- Every definition of a series has a due date. -/
def Dated (s : Store) : Prop := ∀ t ∈ s.tasks, t.Dated

/-- A pass strands no task: what it makes are occurrences. -/
lemma Passed.dated {s s' : Store} {settings : RecurrenceSettings} {now : Instant}
    (h : Passed settings now s s') (hs : s.Dated) : s'.Dated := by
  cases h with
  | idle _ => exact hs
  | acted hgrown _ htasks _ _ =>
    intro t ht
    rw [htasks] at ht
    obtain ⟨u, hu, rfl⟩ := List.mem_map.mp ht
    refine Task.dated_afterExpiry ?_ settings now
    rw [tasks_added] at hu
    rcases List.mem_append.mp hu with hold | hnew
    · exact hs u hold
    · obtain ⟨v, hv, rfl⟩ := List.mem_map.mp hnew
      obtain ⟨p, -, hparent⟩ := hgrown.parent v hv
      exact (Task.dated_stored_iff v).mpr (Task.dated_of_parent hparent)

/-- After changes in place the definitions have due dates exactly when the changed ones do. -/
lemma dated_changed_iff {s : Store} {chosen : List Task} {f : Task → Task} (h : s.Sound)
    (hs : s.Dated) (hchosen : ∀ t ∈ chosen, t ∈ s.tasks) (hf : ∀ t, (f t).parent = t.parent) :
    (s.changed chosen f).Dated ↔ ∀ t ∈ chosen, (f t).Dated := by
  unfold Dated
  rw [tasks_changed h, List.forall_mem_map]
  constructor
  · intro hall t ht
    have hthis := hall t (hchosen t ht)
    rw [if_pos ht, Task.dated_changedBy_iff (hf t)] at hthis
    exact hthis
  · intro hall t ht
    split_ifs with hmem
    · exact (Task.dated_changedBy_iff (hf t)).mpr (hall t hmem)
    · exact hs t ht

end Store

/-! ## Edits that strand a task -/

/-- The call is an edit after which a definition has no due date. -/
def Call.Strands (c : Call) : Prop :=
  ∃ token fields outcome, c.command = .modify token fields ∧ c.reply = .ok (.outcome outcome) ∧
    ∃ t ∈ outcome.changed, ¬ t.Dated

namespace Call

variable {c : Call}

/-- No command but an edit strands a series. -/
lemma not_strands (h : ∀ token fields, c.command ≠ .modify token fields) : ¬ c.Strands := by
  rintro ⟨token, fields, -, hcommand, -⟩
  exact h token fields hcommand

/-- Where every definition has a due date, this stays so exactly when the call is no such edit. -/
lemma dated_iff (h : c.tracker.store.WellFormed) (hdated : c.tracker.store.Dated) :
    c.store.Dated ↔ ¬ c.Strands := by
  cases effect h with
  | unchanged hstore hreply =>
    rw [hstore]
    refine ⟨fun _ => ?_, fun _ => hdated⟩
    rintro ⟨-, -, outcome, -, hok, -⟩
    exact hreply outcome hok
  | @entered _ _ task hcommand hnew _ hstore =>
    refine ⟨fun _ => not_strands fun _ _ hmodify => ?_, fun _ => ?_⟩
    · rw [hcommand] at hmodify
      exact absurd hmodify nofun
    · rw [hstore]
      intro t ht
      rw [Store.tasks_added] at ht
      rcases List.mem_append.mp ht with hold | hentered
      · exact hdated t hold
      · rw [List.map_singleton, List.mem_singleton] at hentered
        rw [hentered]
        exact (Task.dated_stored_iff task).mpr (Fields.dated_of_newTask hnew)
  | passed hcommand hpass =>
    refine ⟨fun _ => not_strands fun _ _ hmodify => ?_, fun _ => ?_⟩
    · rw [hmodify] at hcommand
      exact absurd hcommand Bool.false_ne_true
    · exact (Store.passed_of_trigger h hpass).dated hdated
  | @mutated token m r s on later state hcommand hpass hfind hlater hreply hstore =>
    have hpassed := Store.passed_of_trigger h hpass
    have hs := (hpassed.wellFormed h).sound
    have hchosen : ∀ u ∈ on :: later, u ∈ s.tasks := by
      rw [List.forall_mem_cons]
      exact ⟨(hfind ▸ Store.ends_find hs token).of_ok.1, fun u hu => (hlater u hu).1⟩
    have hparent : ∀ u, (m.apply c.tracker.now u).parent = u.parent := fun u =>
      (keeps_apply m _ u).parent
    -- what the outcome holds is what was changed
    rw [hstore, Store.dated_changed_iff hs (hpassed.dated hdated) hchosen hparent]
    constructor
    · rintro hall ⟨-, -, outcome, -, hok, t, ht, hnot⟩
      rw [hreply] at hok
      obtain rfl := Reply.outcome.inj (Except.ok.inj hok)
      obtain ⟨u, hu, rfl⟩ := List.mem_map.mp ht
      exact hnot (hall u hu)
    · intro hnot u hu
      by_contra hundated
      cases m with
      | edit e =>
        obtain ⟨fields, hmodify, -⟩ := Command.modify_of_mutation? hcommand
        exact hnot ⟨token, fields, _, hmodify, hreply, _, List.mem_map_of_mem hu, hundated⟩
      | delete =>
        -- a deletion leaves the period and the due date alone
        exact hundated (hpassed.dated hdated u (hchosen u hu))
  | completed hcommand hfind hstore =>
    refine ⟨fun _ => not_strands fun _ _ hmodify => ?_, fun _ => ?_⟩
    · rw [hcommand] at hmodify
      exact absurd hmodify nofun
    · have hmem := (hfind ▸ Store.ends_find h.sound _).of_ok.1
      have hparent : ∀ t, (Tracker.complete c.tracker.now t).parent = t.parent := fun _ => rfl
      rw [hstore, Store.dated_changed_iff h.sound hdated
        (fun t ht => List.mem_singleton.mp ht ▸ hmem) hparent]
      intro t ht
      exact hdated t (List.mem_singleton.mp ht ▸ hmem)

end Call

/-- As long as no edit strands a task, every definition of a series has a due date, and the next command
leaves it so exactly when it is no such edit. -/
theorem dated_of_reachable {s : Store} (h : ReachableBy (fun c => ¬ c.Strands) s) :
    (∀ t ∈ s.tasks, t.isRecurringParent = true → t.due.isSome = true) ∧
      ∀ c : Call, c.tracker.store = s →
        ((∀ t ∈ c.store.tasks, t.isRecurringParent = true → t.due.isSome = true) ↔
          ¬ c.Strands) := by
  have hdated : s.Dated := by
    induction h with
    | empty => exact fun _ ht => absurd ht List.not_mem_nil
    | call h hc ih => exact (Call.dated_iff h.wellFormed ih).mpr hc
  refine ⟨hdated, ?_⟩
  rintro c rfl
  exact Call.dated_iff h.wellFormed hdated

namespace Tracker

/-- The call that deletes the daily task. -/
def deleteDaily : Call := ⟨keepingTwo twoStore, TaskId.drawn 1, .delete (TaskId.drawn 1 0).text⟩

/-- The daily task has its due date, and whatever deleting it does, the definitions in the store are left with
theirs. -/
theorem dated_twoStore :
    (ReachableBy (fun c => ¬ c.Strands) twoStore ∧ deleteDaily.tracker.store = twoStore) ∧
      (daily ∈ twoStore.tasks ∧ daily.isRecurringParent = true ∧ daily.due.isSome = true) ∧
      ¬ deleteDaily.Strands ∧
      ∀ t ∈ deleteDaily.store.tasks, t.isRecurringParent = true → t.due.isSome = true := by
  have hreachable : ReachableBy (fun c => ¬ c.Strands) twoStore :=
    reachableBy_twoStore.mono fun _ => Call.not_strands
  have hdaily : daily ∈ twoStore.tasks := by decide
  have hnot : ¬ deleteDaily.Strands := Call.not_strands fun _ _ => nofun
  obtain ⟨hdated, hnext⟩ := dated_of_reachable hreachable
  exact ⟨⟨hreachable, rfl⟩, ⟨hdaily, rfl, hdated daily hdaily rfl⟩, hnot,
    (hnext deleteDaily rfl).mpr hnot⟩

/-! ## A definition without a due date -/

/-- A task with nothing but a description, the first one to be entered. -/
def firstTask : Task := Task.fresh (TaskId.drawn 1 0) "x" start.now

/-- What is typed to make a task a daily one. -/
def dailyPeriod : Fields := { recur := some "daily" }

/-- The edit that makes a task a daily one. -/
def becomeDaily : Mutation := .edit { recur := some (.calendar .day 1 false) }

/-- The store with the task before the edit. -/
def undatedStore : Store := ({} : Store).added [firstTask]

/-- The store with the task after the edit. -/
def strandedStore : Store := undatedStore.changed [firstTask] (becomeDaily.apply start.now)

/-- A task that has no due date is entered, and an edit gives it a period: the definition of a series
that can never begin. -/
theorem stranded_by_period :
    ReachableBy (fun _ => True) strandedStore ∧
      ∃ t ∈ strandedStore.tasks, t.isRecurringParent = true ∧ t.due = none := by
  have hfresh : HasFreshIds {} (TaskId.drawn 1) := hasFreshIds_empty
  have hadd := @run_add start _ "x" {} firstTask Store.wellFormed_empty rfl hfresh (by decide +kernel)
  have hundated : ReachableBy (fun _ => True) undatedStore :=
    .of_run .empty trivial (congrArg Prod.snd hadd)
  have hwf := hundated.wellFormed
  have hcommand : (Command.modify (TaskId.drawn 1 0).text dailyPeriod).mutation? start.now =
      some ((TaskId.drawn 1 0).text, becomeDaily) := by decide +kernel
  have hpass : undatedStore.trigger (TaskId.drawn 1) {} start.now = .ok (⟨0, 0⟩, undatedStore) :=
    Store.trigger_eq_nothing_of_gate hwf rfl (by decide +kernel)
  have hfind : undatedStore.find (TaskId.drawn 1 0).text = .ok firstTask := by decide +kernel
  have hrun := (@propagated_of_regular { start with store := undatedStore } _ _ _ _ _ _ _ hwf hcommand
    hpass hfind rfl (by decide +kernel) (by decide +kernel)).alone (by decide +kernel)
  exact ⟨.of_run hundated trivial (congrArg Prod.snd hrun), by decide +kernel⟩

end Tracker

end TaskSeries
