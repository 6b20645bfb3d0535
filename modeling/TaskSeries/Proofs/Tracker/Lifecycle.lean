import TaskSeries.Proofs.Tracker.DueDates

/-!
# The life of a task

A stored task stays where it is: no command removes it, and its id, its entry and its place in a series
never change. Once it is completed or deleted it remains one of the two (`Task.Becomes`), and it has an
end exactly then (`Task.EndFits`). New tasks stand behind the stored ones, occurrences only of parents
that were open before the command. `lifecycle_of_reachable` says so for every command and, by induction
on the commands, for all that follow.
-/

namespace TaskSeries

open TaskSeries.Calendar TaskSeries.Series

/-! ## One task -/

/-- What a task may become while it is stored. -/
structure Task.Becomes (old new : Task) : Prop where
  id : new.id = old.id
  entry : new.entry = old.entry
  parent : new.parent = old.parent
  mask : new.mask = old.mask
  /-- A completed or deleted task is never open again. -/
  closed : old.status.isOpen = false → new.status.isOpen = false

/-- The task has an end exactly when it is completed or deleted. -/
def Task.EndFits (t : Task) : Prop :=
  t.finished.isSome = true ↔ t.status.isOpen = false

namespace Task

variable {t u v : Task} {f : Task → Task} {now : Instant}

lemma Becomes.refl (t : Task) : t.Becomes t := ⟨rfl, rfl, rfl, rfl, fun h => h⟩

lemma Becomes.trans (h : t.Becomes u) (h' : u.Becomes v) : t.Becomes v where
  id := h'.id.trans h.id
  entry := h'.entry.trans h.entry
  parent := h'.parent.trans h.parent
  mask := h'.mask.trans h.mask
  closed := fun hclosed => h'.closed (h.closed hclosed)

/-- A stored task that is changed in place keeps its entry and its place, whatever the change does. -/
lemma becomes_changedBy (ht : t.stored = t) (hid : (f t).id = t.id)
    (hclosed : t.status.isOpen = false → (f t).status.isOpen = false) :
    t.Becomes (t.changedBy f) where
  id := hid
  entry := (congrArg Task.entry ht :)
  parent := rfl
  mask := rfl
  closed := hclosed

lemma endFits_stored_iff (t : Task) : t.stored.EndFits ↔ t.EndFits := by
  unfold EndFits
  rw [show t.stored.finished.isSome = t.finished.isSome from Option.isSome_map]
  rfl

lemma endFits_changedBy_iff : (t.changedBy f).EndFits ↔ (f t).EndFits :=
  endFits_stored_iff ((f t).inPlaceOf t)

/-- A task that was never finished fits when it is pending. -/
lemma endFits_of_pending (hstatus : t.status = .pending) (hfinished : t.finished = none) :
    t.EndFits := by
  unfold EndFits
  rw [hstatus, hfinished]
  decide

end Task

/-! ## Changes of one task -/

section
variable {t : Task} {now : Instant}

/-- A closed task stays closed under any mutation. -/
lemma Mutation.closed_apply (m : Mutation) (h : t.status.isOpen = false) :
    (m.apply now t).status.isOpen = false := by
  cases m with
  | edit e => exact h
  | delete => rfl

/-- Mutations leave the end of a task fitting its status. -/
lemma Mutation.endFits_apply (m : Mutation) (h : t.EndFits) : (m.apply now t).EndFits := by
  cases m with
  | edit e => exact h
  | delete => exact ⟨fun _ => rfl, fun _ => rfl⟩

lemma Tracker.endFits_complete : (Tracker.complete now t).EndFits :=
  ⟨fun _ => rfl, fun _ => rfl⟩

/-- Expiry is one of the things that may become of a task. -/
lemma Task.becomes_afterExpiry (ht : t.stored = t) (settings : RecurrenceSettings) (now : Instant) :
    t.Becomes (t.afterExpiry settings now) := by
  unfold Task.afterExpiry
  split_ifs
  · exact becomes_changedBy ht rfl fun _ => rfl
  · exact .refl t

lemma Task.endFits_afterExpiry (h : t.EndFits) (settings : RecurrenceSettings) (now : Instant) :
    (t.afterExpiry settings now).EndFits := by
  unfold Task.afterExpiry
  split_ifs
  · exact endFits_changedBy_iff.mpr (Mutation.delete.endFits_apply h)
  · exact h

/-- A task is entered pending and without an end. -/
lemma Fields.endFits_of_newTask {f : Fields} {id : TaskId} {description : String}
    {task : Task} (h : f.newTask id description now = .ok task) : task.EndFits := by
  unfold newTask at h
  split at h
  · obtain ⟨recur, -, h⟩ := bind_eq_ok.mp h
    obtain ⟨due, -, h⟩ := bind_eq_ok.mp h
    obtain ⟨expiry, -, h⟩ := bind_eq_ok.mp h
    split_ifs at h
    rw [← Except.ok.inj h]
    exact Task.endFits_of_pending rfl rfl
  · exact absurd h nofun

end

namespace Store

/-! ## One store and a later one -/

/-- Every task of the store is where it was, and new tasks stand behind them. -/
def Extended (s : Store) (new : List Task) (s' : Store) : Prop :=
  ∃ f : Task → Task, (∀ t ∈ s.tasks, t.Becomes (f t)) ∧ s'.tasks = s.tasks.map f ++ new

variable {s s' s'' : Store} {new more : List Task} {settings : RecurrenceSettings} {now : Instant}

lemma extended_self (s : Store) : s.Extended [] s :=
  ⟨id, fun t _ => .refl t, by simp⟩

lemma extended_added (s : Store) (made : List Task) :
    s.Extended (made.map Task.stored) (s.added made) :=
  ⟨id, fun t _ => .refl t, by rw [tasks_added, List.map_id]⟩

/-- What is changed in place behind an extension was changed in place from the beginning. -/
lemma Extended.map (h : s.Extended new s') {g : Task → Task}
    (hg : ∀ t ∈ s'.tasks, t.Becomes (g t)) (htasks : s''.tasks = s'.tasks.map g) :
    s.Extended (new.map g) s'' := by
  obtain ⟨f, hf, hs'⟩ := h
  refine ⟨g ∘ f, fun t ht => (hf t ht).trans (hg (f t) ?_), ?_⟩
  · rw [hs']
    exact List.mem_append_left _ (List.mem_map_of_mem ht)
  · rw [htasks, hs', List.map_append, List.map_map]

lemma Extended.trans (h : s.Extended new s') (h' : s'.Extended more s'') :
    ∃ all, s.Extended all s'' := by
  obtain ⟨g, hg, hs''⟩ := h'
  obtain ⟨f, hf, hs'⟩ := h
  refine ⟨new.map g ++ more, g ∘ f, fun t ht => (hf t ht).trans (hg (f t) ?_), ?_⟩
  · rw [hs']
    exact List.mem_append_left _ (List.mem_map_of_mem ht)
  · rw [hs'', hs', List.map_append, List.map_map, List.append_assoc]

/-! ## Passes -/

/-- What a pass adds are occurrences of parents whose series go on, and nothing when generating is
disabled. -/
lemma Passed.exists_extended (h : Passed settings now s s') :
    ∃ new, s.Extended new s' ∧ ∀ t ∈ new, settings.enabled = true ∧
      ∃ p ∈ s.tasks, p.isActiveParent = true ∧ t.parent = some p.id := by
  cases h with
  | idle _ => exact ⟨[], extended_self s, fun t ht => absurd ht List.not_mem_nil⟩
  | @acted _ parents new hgrown hparents htasks _ _ =>
    have hsound := hgrown.wellFormed.sound
    refine ⟨_, (extended_added s new).map (fun t ht => ?_) htasks, ?_⟩
    · exact Task.becomes_afterExpiry (hsound.stored_eq ht) settings now
    · intro t ht
      rw [List.map_map] at ht
      obtain ⟨u, hu, rfl⟩ := List.mem_map.mp ht
      obtain ⟨p, hp, hparent⟩ := hgrown.parent u hu
      obtain ⟨henabled, hstored, hactive⟩ := (mem_parents_iff hparents).mp hp
      exact ⟨henabled, p, hstored, hactive, keeps_afterExpiry.parent.trans hparent⟩

/-- What a pass makes is open and has no end, and what it deletes gets one. -/
lemma Passed.endFits (h : Passed settings now s s') (hs : ∀ t ∈ s.tasks, t.EndFits) :
    ∀ t ∈ s'.tasks, t.EndFits := by
  cases h with
  | idle _ => exact hs
  | acted hgrown _ htasks _ _ =>
    rw [htasks, List.forall_mem_map, tasks_added]
    intro t ht
    refine Task.endFits_afterExpiry ?_ settings now
    rcases List.mem_append.mp ht with hold | hnew
    · exact hs t hold
    · obtain ⟨u, hu, rfl⟩ := List.mem_map.mp hnew
      obtain ⟨p, -, id, due, mask, rfl⟩ := hgrown.exists_occurrence hu
      exact (Task.endFits_stored_iff _).mpr (Task.endFits_of_pending rfl rfl)

/-- Changes after which the end of each task fits its status leave it so throughout the store. -/
lemma endFits_changed {chosen : List Task} {f : Task → Task} (h : s.Sound)
    (hs : ∀ t ∈ s.tasks, t.EndFits) (hf : ∀ t ∈ s.tasks, (f t).EndFits) :
    ∀ t ∈ (s.changed chosen f).tasks, t.EndFits := by
  rw [tasks_changed h, List.forall_mem_map]
  intro t ht
  split_ifs
  · exact Task.endFits_changedBy_iff.mpr (hf t ht)
  · exact hs t ht

/-- Changing stored tasks in place adds none. -/
lemma Extended.changed (h : s.Extended new s') (hs' : s'.Sound) (chosen : List Task)
    {f : Task → Task} (hid : ∀ t, (f t).id = t.id)
    (hclosed : ∀ t, t.status.isOpen = false → (f t).status.isOpen = false) :
    s.Extended (new.map fun t => if t ∈ chosen then t.changedBy f else t)
      (s'.changed chosen f) := by
  refine h.map ?_ (tasks_changed hs')
  intro t ht
  split_ifs
  · exact Task.becomes_changedBy (hs'.stored_eq ht) (hid t) (hclosed t)
  · exact .refl t

end Store

/-! ## Calls -/

namespace Call

variable {c : Call}

/-- The call enters a task, and succeeds. -/
def Enters (c : Call) : Prop :=
  ∃ description fields reply, c.command = .add description fields ∧ c.reply = .ok reply

/-- Every end fits its task after a call. -/
lemma endFits (h : c.tracker.store.WellFormed) (hs : ∀ t ∈ c.tracker.store.tasks, t.EndFits) :
    ∀ t ∈ c.store.tasks, t.EndFits := by
  cases effect h with
  | unchanged hstore _ =>
    rw [hstore]
    exact hs
  | @entered _ _ task _ hnew _ hstore =>
    rw [hstore, Store.tasks_added, List.forall_mem_append, List.map_singleton,
      List.forall_mem_singleton, Task.endFits_stored_iff]
    exact ⟨hs, Fields.endFits_of_newTask hnew⟩
  | passed _ hpass => exact (Store.passed_of_trigger h hpass).endFits hs
  | @mutated _ m _ _ _ _ _ _ hpass _ _ _ hstore =>
    have hpassed := Store.passed_of_trigger h hpass
    rw [hstore]
    refine Store.endFits_changed (hpassed.wellFormed h).sound (hpassed.endFits hs) ?_
    exact fun t ht => m.endFits_apply (hpassed.endFits hs t ht)
  | completed _ _ hstore =>
    rw [hstore]
    exact Store.endFits_changed h.sound hs fun t _ => Tracker.endFits_complete

/-- A call that enters a task adds just that one, and any other call adds nothing but occurrences that a
pass makes. -/
lemma exists_extended (h : c.tracker.store.WellFormed) :
    ∃ new, c.tracker.store.Extended new c.store ∧
      ((c.Enters ∧ ∃ t, t.parent = none ∧ new = [t]) ∨
        (¬ c.Enters ∧ ∀ t ∈ new, c.tracker.config.recurrence.enabled = true ∧
          ∃ p ∈ c.tracker.store.tasks, p.isActiveParent = true ∧ t.parent = some p.id)) := by
  have hnothing : ∀ t ∈ ([] : List Task), c.tracker.config.recurrence.enabled = true ∧
      ∃ p ∈ c.tracker.store.tasks, p.isActiveParent = true ∧ t.parent = some p.id :=
    fun t ht => absurd ht List.not_mem_nil
  by_cases hadd : ∃ description fields, c.command = .add description fields
  · obtain ⟨description, fields, hcommand⟩ := hadd
    rcases add_cases h hcommand with ⟨task, hnew, -, hreply, hstore⟩ | ⟨⟨fault, hreply⟩, hstore⟩
    · obtain ⟨-, hparent, -⟩ := (hnew ▸ Fields.ends_newTask _ _ _ _).of_ok
      have henters : c.Enters := ⟨description, fields, _, hcommand, hreply⟩
      rw [hstore]
      exact ⟨_, Store.extended_added _ [task], Or.inl ⟨henters, task.stored, hparent, rfl⟩⟩
    · have hfailed : ¬ c.Enters := by
        rintro ⟨-, -, reply, -, hok⟩
        rw [hreply] at hok
        exact absurd hok nofun
      rw [hstore]
      exact ⟨[], Store.extended_self _, Or.inr ⟨hfailed, hnothing⟩⟩
  · have henters : ¬ c.Enters := fun ⟨description, fields, _, hcommand, _⟩ =>
      hadd ⟨description, fields, hcommand⟩
    cases effect h with
    | unchanged hstore _ =>
      rw [hstore]
      exact ⟨[], Store.extended_self _, Or.inr ⟨henters, hnothing⟩⟩
    | entered hcommand _ _ _ => exact absurd ⟨_, _, hcommand⟩ hadd
    | passed _ hpass =>
      obtain ⟨new, hextended, hnew⟩ := (Store.passed_of_trigger h hpass).exists_extended
      exact ⟨new, hextended, Or.inr ⟨henters, hnew⟩⟩
    | @mutated _ m _ _ on later _ _ hpass _ _ _ hstore =>
      have hpassed := Store.passed_of_trigger h hpass
      have hs := (hpassed.wellFormed h).sound
      obtain ⟨new, hextended, hnew⟩ := hpassed.exists_extended
      rw [hstore]
      refine ⟨_, hextended.changed hs (on :: later) (fun t => (keeps_apply m _ t).id)
        (fun t => m.closed_apply), Or.inr ⟨henters, ?_⟩⟩
      -- a change in place leaves the parent of what the pass has made
      rw [List.forall_mem_map]
      intro t ht
      obtain ⟨henabled, p, hp, hactive, hparent⟩ := hnew t ht
      refine ⟨henabled, p, hp, hactive, ?_⟩
      split_ifs <;> exact hparent
    | completed _ _ hstore =>
      rw [hstore]
      exact ⟨[], (Store.extended_self _).changed h.sound _ (fun _ => rfl) (fun _ _ => rfl),
        Or.inr ⟨henters, hnothing⟩⟩

end Call

/-! ## Runs -/

/-- Calls, one after another, lead from one store to another. -/
inductive LeadsTo : Store → Store → Prop
  | refl (s : Store) : LeadsTo s s
  | call {s : Store} {c : Call} (h : LeadsTo s c.tracker.store) : LeadsTo s c.store

/-- What a reachable store leads to is reachable. -/
lemma ReachableBy.leadsTo {s s' : Store} (h : ReachableBy (fun _ => True) s) (hlater : LeadsTo s s') :
    ReachableBy (fun _ => True) s' := by
  induction hlater with
  | refl => exact h
  | call _ ih => exact .call ih trivial

/-- The end of every stored task fits. -/
lemma ReachableBy.endFits {allowed : Call → Prop} {s : Store} (h : ReachableBy allowed s) :
    ∀ t ∈ s.tasks, t.EndFits := by
  induction h with
  | empty => exact fun _ ht => absurd ht List.not_mem_nil
  | call h _ ih => exact Call.endFits h.wellFormed ih

/-- Whatever calls follow, every stored task stays. -/
lemma ReachableBy.exists_extended {s s' : Store} (h : ReachableBy (fun _ => True) s)
    (hlater : LeadsTo s s') : ∃ new, s.Extended new s' := by
  induction hlater with
  | refl => exact ⟨[], Store.extended_self s⟩
  | call hbefore ih =>
    obtain ⟨new, hextended⟩ := ih
    obtain ⟨more, hmore, -⟩ := Call.exists_extended (h.leadsTo hbefore).wellFormed
    exact hextended.trans hmore

/-- Every stored task has an end exactly when it is completed or deleted. A command leaves the stored
tasks in their places, and puts behind them no occurrence of a parent that was completed or deleted,
nothing at all while recurrence is disabled, except that a task that is entered is the only new one.
Whatever commands follow, the stored tasks stay, and none of the completed or deleted ones is open
again. -/
theorem lifecycle_of_reachable {s : Store} (h : ReachableBy (fun _ => True) s) :
    (∀ t ∈ s.tasks, t.finished.isSome = true ↔ t.status.isOpen = false) ∧
      (∀ c : Call, c.tracker.store = s → ∃ new, s.Extended new c.store ∧
        (∀ t ∈ new, t.id ∉ s.tasks.map Task.id) ∧
        (∀ p ∈ s.tasks, p.status.isOpen = false → ∀ t ∈ new, t.parent ≠ some p.id) ∧
        (c.Enters → ∃ t, new = [t]) ∧
        (c.tracker.config.recurrence.enabled = false → ¬ c.Enters → new = [])) ∧
      ∀ s', LeadsTo s s' → ∃ new, s.Extended new s' := by
  refine ⟨h.endFits, ?_, fun s' => h.exists_extended⟩
  rintro c rfl
  have hwf := h.wellFormed
  obtain ⟨new, hextended, hnew⟩ := Call.exists_extended hwf
  refine ⟨new, hextended, ?_, ?_, ?_, ?_⟩
  · -- the ids in the new store are distinct, and the old tasks have kept theirs
    obtain ⟨f, hf, htasks⟩ := hextended
    have hkept : c.tracker.store.tasks.map (Task.id ∘ f) = c.tracker.store.tasks.map Task.id :=
      List.map_congr_left fun t ht => (hf t ht).id
    have hids := ((Call.effect hwf).wellFormed hwf).structured.ids
    rw [htasks, List.map_append, List.map_map, hkept] at hids
    exact fun t ht hold => List.disjoint_of_nodup_append hids hold (List.mem_map_of_mem ht)
  · intro p hp hclosed t ht hparent
    rcases hnew with ⟨-, u, hu, rfl⟩ | ⟨-, hmade⟩
    · rw [List.mem_singleton.mp ht, hu] at hparent
      exact absurd hparent nofun
    · obtain ⟨-, q, hq, hactive, hquit⟩ := hmade t ht
      rw [hparent] at hquit
      rw [← hwf.eq_of_id hp hq (Option.some.inj hquit)] at hactive
      unfold Task.isActiveParent at hactive
      rw [hclosed, Bool.and_false] at hactive
      exact absurd hactive Bool.false_ne_true
  · intro henters
    rcases hnew with ⟨-, t, -, rfl⟩ | ⟨hnot, -⟩
    · exact ⟨t, rfl⟩
    · exact absurd henters hnot
  · intro hdisabled hnot
    rcases hnew with ⟨henters, -⟩ | ⟨-, hmade⟩
    · exact absurd henters hnot
    · refine List.eq_nil_iff_forall_not_mem.mpr fun t ht => ?_
      have henabled := (hmade t ht).1
      rw [hdisabled] at henabled
      exact absurd henabled Bool.false_ne_true

namespace Tracker

/-- A pass leaves the daily task in its place and puts the two occurrences behind it, under new ids. All three
are open and have no end. -/
theorem lifecycle_twoStore :
    (ReachableBy (fun _ => True) dailyStore ∧ ReachableBy (fun _ => True) twoStore) ∧
      firstPass.store = twoStore ∧ dailyStore.Extended [firstDaily, secondDaily] twoStore ∧
      (firstDaily.id ∉ dailyStore.tasks.map Task.id ∧ secondDaily.id ∉ dailyStore.tasks.map Task.id) ∧
      (∀ t ∈ twoStore.tasks, t.status.isOpen = true ∧ t.finished = none) ∧
      ∃ new, twoStore.Extended new twoStore := by
  have hdaily : ReachableBy (fun _ => True) dailyStore := .of_reachable reachable_dailyStore
  have htwo : ReachableBy (fun _ => True) twoStore := reachableBy_twoStore.mono fun _ _ => trivial
  obtain ⟨-, hcall, -⟩ := lifecycle_of_reachable hdaily
  obtain ⟨hends, -, hstays⟩ := lifecycle_of_reachable htwo
  obtain ⟨new, hextended, hids, -⟩ := hcall firstPass rfl
  rw [store_firstPass] at hextended
  -- behind the task that was there stand the two new ones
  have hnew : new = [firstDaily, secondDaily] := by
    obtain ⟨f, -, htasks⟩ := hextended
    exact (List.cons.inj htasks).2.symm
  rw [hnew] at hextended hids
  refine ⟨⟨hdaily, htwo⟩, store_firstPass, hextended, ⟨hids _ ?_, hids _ ?_⟩, ?_, hstays _ (.refl _)⟩
  · exact List.mem_cons_self
  · exact List.mem_cons_of_mem _ (List.mem_singleton_self _)
  · intro t ht
    have hopen : t.status.isOpen = true := by
      revert t
      decide
    refine ⟨hopen, Option.not_isSome_iff_eq_none.mp fun hsome => ?_⟩
    rw [(hends t ht).mp hsome] at hopen
    exact absurd hopen Bool.false_ne_true

end Tracker

end TaskSeries
