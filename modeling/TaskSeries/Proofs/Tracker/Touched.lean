import TaskSeries.Proofs.Tracker.Again

/-!
# What a pass may touch

A pass that succeeds adds pending occurrences of the parents whose series go on, behind everything that
is stored. Under the gate policy that is all. Under the policy of expiring it also deletes every pending
task whose expiry has passed, be it one that was stored before or one just added, and leaves all other
rows alone; afterwards there is no such task (`Tracker.touched_of_trigger`).
-/

namespace TaskSeries

open TaskSeries.Calendar TaskSeries.Series

/-! ## Deletions in place -/

/-- The task is pending although its expiry has passed. -/
def Task.IsOver (now : Instant) (t : Task) : Prop :=
  t.status = .pending ∧ ∃ expiry, t.expiry = some expiry ∧ expiry < now

/-- The stored task after it was deleted: it is finished now, to the millisecond. -/
def Task.deletedAt (now : Instant) (t : Task) : Task :=
  { t with
    status := .deleted
    finished := some now.stored
    modified := now.stored }

namespace Store

variable {s : Store} {now : Instant} {t : Task}

/-- The test for tasks that have expired is right. -/
lemma isPast_iff : isPast now t = true ↔ t.IsOver now := by
  unfold isPast Task.IsOver
  rw [Bool.and_eq_true, beq_iff_eq, Option.any_eq_true]
  simp only [decide_eq_true_eq]

instance : Decidable (t.IsOver now) := decidable_of_iff _ isPast_iff

/-- The store with the tasks deleted that were pending although their expiry had passed. -/
def expired (now : Instant) (s : Store) : Store :=
  { s with
    rows := s.rows.map fun r =>
      if r.task.IsOver now then Row.ofTask (r.task.deletedAt now) else r }

/-- A stored task is deleted by closing it and stamping it. -/
lemma stored_apply_delete (ht : t.stored = t) :
    (Mutation.delete.apply now t).stored = t.deletedAt now := by
  have hentry : t.entry.stored = t.entry := congrArg Task.entry ht
  have hdue : t.due.map Instant.stored = t.due := congrArg Task.due ht
  have hexpiry : t.expiry.map Instant.stored = t.expiry := congrArg Task.expiry ht
  unfold Task.stored Mutation.apply Task.deletedAt
  simp only [hentry, hdue, hexpiry, Option.map_some]

/-- Changing the tasks whose expiry has passed into deleted ones is all that expiring does. -/
lemma changed_eq_expired (h : s.Sound) {past : List Task}
    (hpast : past.Perm (s.tasks.filter (isPast now))) :
    s.changed past (Mutation.delete.apply now) = s.expired now := by
  unfold changed expired
  congr 1
  refine List.map_congr_left fun r hr => ?_
  -- the tasks that were picked out are those that the condition picks in place
  have hiff : r.task ∈ past ↔ r.task.IsOver now := by
    rw [hpast.mem_iff, List.mem_filter, isPast_iff]
    exact and_iff_right (mem_tasks_of_mem_rows hr)
  refine if_congr hiff ?_ rfl
  rw [(h r hr).update_eq, ← stored_apply_delete (h r hr).stored_task, Row.ofTask_stored]
  rfl

/-- After the deletions no expiry has passed. -/
lemma not_isOver_of_mem_expired (ht : t ∈ (s.expired now).tasks) : ¬ t.IsOver now := by
  obtain ⟨r, hr, rfl⟩ := List.mem_map.mp ht
  obtain ⟨old, -, rfl⟩ := List.mem_map.mp hr
  split_ifs with hover
  · exact fun hpending => absurd hpending.1 nofun
  · exact hover

/-! ## The whole pass -/

/-- A pass has added tasks to a store and deleted the ones whose expiry has passed where the policy asks
for it, and it has reported how many. -/
structure Touched (settings : RecurrenceSettings) (now : Instant) (s : Store) (r : TriggerReport)
    (s' : Store) (new : List Task) : Prop where
  /-- Every new task is an occurrence, entered now, of a parent whose series goes on. -/
  occurrence : ∀ t ∈ new, t.status = .pending ∧ ∃ p ∈ s.tasks, p.isRecurringParent = true ∧
    (p.status = .pending ∨ p.status = .waiting) ∧ ∃ id due mask, t = occurrence p id due mask now
  /-- Every parent whose series goes on gets what it is missing. -/
  made : settings.enabled = true → ∀ p ∈ s.tasks, p.isActiveParent = true →
    ∃ children draw, children.Perm (s.children p.id) ∧
      childrenIn new p.id = materialize p children now settings.horizon draw
  disabled : settings.enabled = false → new = []
  ids : ((s.tasks ++ new).map Task.id).Nodup
  generated : r.generated = new.length
  /-- Under the gate policy no row changes. -/
  gate : settings.policy = .gate → s' = s.added new ∧ r.expired = 0
  /-- Under the policy of expiring, no other row changes than those of the deleted tasks. -/
  expire : settings.policy = .expire → s' = (s.added new).expired now ∧
    r.expired = (s.added new).tasks.countP (Task.IsOver now ·) ∧ ∀ t ∈ s'.tasks, ¬ t.IsOver now

lemma isRecurringParent_of_isActiveParent (h : t.isActiveParent = true) :
    t.isRecurringParent = true ∧ (t.status = .pending ∨ t.status = .waiting) := by
  obtain ⟨hparent, hopen⟩ := Bool.and_eq_true_iff.mp h
  refine ⟨hparent, ?_⟩
  cases hstatus : t.status with
  | pending => exact .inl rfl
  | waiting => exact .inr rfl
  | completed | deleted =>
    rw [hstatus] at hopen
    exact absurd hopen Bool.false_ne_true

/-- What expiring has done and counted when it has succeeded. -/
lemma eq_expired_of_expire {n : Nat} {s' : Store} (h : s.WellFormed)
    (hok : s.expire now = .ok (n, s')) :
    s' = s.expired now ∧ n = s.tasks.countP (Task.IsOver now ·) := by
  obtain ⟨past, hpast, hx⟩ := (hok ▸ ends_expire h now).of_ok
  obtain ⟨rfl, rfl⟩ := Prod.mk.inj hx
  refine ⟨changed_eq_expired h.sound hpast, ?_⟩
  rw [hpast.length_eq, ← List.countP_eq_length_filter]
  exact List.countP_congr fun t _ => by rw [isPast_iff, decide_eq_true_eq]

/-- A pass over a well-formed store touches nothing else. -/
lemma exists_touched {settings : RecurrenceSettings} {draw : Nat → TaskId} {r : TriggerReport}
    {s' : Store} (h : s.WellFormed) (hok : s.trigger draw settings now = .ok (r, s')) :
    ∃ new, Touched settings now s r s' new := by
  obtain ⟨s₁, hgenerate, hexpire, -⟩ := trigger_eq_ok_iff.mp hok
  obtain ⟨parents, new, hgrown, hx, hparents⟩ := generate_eq_ok h hgenerate
  obtain ⟨hgenerated, rfl⟩ := Prod.mk.inj hx
  unfold expireUnder at hexpire
  refine ⟨new, ?_, ?_, ?_, ?_, hgenerated, ?_, ?_⟩
  · intro t ht
    obtain ⟨p, hp, id, due, mask, rfl⟩ := hgrown.exists_occurrence ht
    obtain ⟨-, hstored, hactive⟩ := (mem_parents_iff hparents).mp hp
    obtain ⟨hparent, hopen⟩ := isRecurringParent_of_isActiveParent hactive
    exact ⟨rfl, p, hstored, hparent, hopen, id, due, mask, rfl⟩
  · intro henabled p hp hactive
    exact hgrown.made p ((mem_parents_iff hparents).mpr ⟨henabled, hp, hactive⟩)
  · intro hdisabled
    refine List.eq_nil_iff_forall_not_mem.mpr fun t ht => ?_
    obtain ⟨p, hp, -⟩ := hgrown.parent t ht
    obtain ⟨henabled, -⟩ := (mem_parents_iff hparents).mp hp
    exact absurd (henabled.symm.trans hdisabled) (by decide)
  · have hids := hgrown.wellFormed.structured.ids
    rw [h.sound.tasks_added_eq, List.map_map] at hids
    exact hids
  · intro hpolicy
    rw [hpolicy, if_neg nofun] at hexpire
    obtain ⟨hzero, rfl⟩ := Prod.mk.inj (Except.ok.inj hexpire)
    exact ⟨rfl, hzero.symm⟩
  · intro hpolicy
    rw [if_pos hpolicy] at hexpire
    obtain ⟨rfl, hexpired⟩ := eq_expired_of_expire hgrown.wellFormed hexpire
    exact ⟨rfl, hexpired, fun t ht => not_isOver_of_mem_expired ht⟩

end Store

namespace Tracker

/-- A pass over a reachable store adds pending occurrences of parents whose series go on, deletes what is
pending although its expiry has passed, if the policy asks for it, and touches nothing else; it reports
how many tasks it has added and how many it has deleted. -/
theorem touched_of_trigger {s s' : Store} {settings : RecurrenceSettings} {draw : Nat → TaskId}
    {now : Instant} {r : TriggerReport} (h : Reachable s)
    (hok : s.trigger draw settings now = .ok (r, s')) :
    ∃ new, Store.Touched settings now s r s' new :=
  Store.exists_touched h.wellFormed hok

/-- The first pass over the edited occurrence adds nothing, since it is ahead, and deletes it, since it was to
expire the day before. -/
theorem touched_shortStore :
    ∃ s', (Reachable shortStore ∧
      shortStore.trigger (TaskId.drawn 1) { policy := .expire } start.now = .ok (⟨0, 1⟩, s')) ∧
      Store.Touched { policy := .expire } start.now shortStore ⟨0, 1⟩ s' [] ∧
      s' = shortStore.expired start.now ∧ s'.tasks = [daily, deletedDaily] ∧
      shortStore.tasks = [daily, shortDaily] ∧ shortDaily.IsOver start.now := by
  obtain ⟨s', hok, -, hlist⟩ := exists_trigger_shortStore
  obtain ⟨new, htouched⟩ := touched_of_trigger reachable_shortStore hok
  obtain rfl : new = [] := List.length_eq_zero_iff.mp htouched.generated.symm
  have hexpired := (htouched.expire rfl).1
  rw [Store.added_nil] at hexpired
  exact ⟨s', ⟨reachable_shortStore, hok⟩, htouched, hexpired, hlist, by decide, by decide⟩

end Tracker

end TaskSeries
