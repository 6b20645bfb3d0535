import TaskSeries.Proofs.Tracker.Pass
import TaskSeries.Proofs.Tracker.Reachable

/-!
# A second pass

A pass that was not cut short has nothing left to do for a second one at the same instant, with one
exception: generating comes before expiring, so that an occurrence which is deleted although it is due
ahead leaves a gap that only the next pass fills. `Store.trigger_again_iff` says exactly when this
happens.
-/

namespace TaskSeries

open TaskSeries.Calendar TaskSeries.Series

namespace Store

variable {s s' : Store} {draw : Nat → TaskId} {now : Instant} {settings : RecurrenceSettings}

/-- The pass from one store to another has opened a gap: it has deleted an occurrence that was due
ahead, and the series of this occurrence goes on and has too few others ahead. -/
def OpensGap (settings : RecurrenceSettings) (now : Instant) (s s' : Store) : Prop :=
  settings.enabled = true ∧ ∃ p ∈ s'.tasks, p.isActiveParent = true ∧
    (∃ c ∈ s.children p.id, c.expires settings now = true ∧ isAhead now c = true) ∧
    GoesOn p (s'.children p.id) ∧ pendingAhead (s'.children p.id) now < settings.horizon

/-- A pass that does nothing opens no gap. -/
lemma not_opensGap_self (h : settings.enabled = true → s.CaughtUp settings.horizon now) :
    ¬ OpensGap settings now s s := by
  rintro ⟨henabled, p, hp, hactive, -, hgoes, hshort⟩
  have henough := h henabled p hp hactive hgoes
  omega

/-! ## Deleting from a store that is caught up -/

section
variable {s₁ : Store} (htasks : s'.tasks = s₁.tasks.map (Task.afterExpiry settings now))
include htasks

/-- Less is ahead after the deletions only if one of the deleted occurrences was. -/
lemma exists_expires_of_pendingAhead_lt {p : TaskId}
    (hlt : pendingAhead (s'.children p) now < pendingAhead (s₁.children p) now) :
    ∃ c ∈ s₁.children p, c.expires settings now = true ∧ isAhead now c = true := by
  by_contra hnone
  have hsame : pendingAhead (s'.children p) now = pendingAhead (s₁.children p) now := by
    rw [children_afterExpiry htasks]
    exact pendingAhead_map fun t ht => isAhead_afterExpiry fun hboth => hnone ⟨t, ht, hboth⟩
  omega

end

/-- An occurrence that was made by a pass is not deleted by it while it is ahead. -/
lemma Grown.mem_children_of_expires {parents new : List Task} {horizon : Nat} {p c : Task}
    (h : Grown now horizon s parents new) (hs : s.WellFormed)
    (hdue : ∀ t ∈ s.tasks, ∀ due, t.due = some due → due ≤ .lastRegular)
    (hp : p ∈ parents) (hstored : p ∈ s.tasks) (hc : c ∈ (s.added new).children p.id)
    (hexpires : c.expires settings now = true) (hahead : isAhead now c = true) :
    c ∈ s.children p.id := by
  rw [children_added, List.mem_append] at hc
  rcases hc with hold | hnew
  · exact hold
  · obtain ⟨t, ht, rfl⟩ := List.mem_map.mp hnew
    obtain ⟨hkept, hexpiry, due, heq, -, hwithin⟩ := h.due_of_mem hs hdue hp hstored ht
    have hparent : p.expiry.map Instant.stored = p.expiry :=
      congrArg Task.expiry (hs.sound.stored_eq hstored)
    have hpast : t.stored.expiry.any (· < now) = true := by
      unfold Task.expires isPast at hexpires
      rw [Bool.and_eq_true, Bool.and_eq_true] at hexpires
      exact hexpires.2.2
    have hlater : t.stored.due.any (now < ·) = true := by
      unfold isAhead at hahead
      rw [Bool.and_eq_true] at hahead
      exact hahead.2
    rw [show t.stored.expiry = p.expiry by rw [← hparent, ← hexpiry]; rfl] at hpast
    rw [hkept, heq] at hlater
    rw [withinExpiry_iff] at hwithin
    rw [Option.any_eq_true] at hpast
    obtain ⟨e, he, hbefore⟩ := hpast
    have hend : due ≤ e := hwithin e he
    exact absurd (Instant.lt_trans (of_decide_eq_true hbefore) (of_decide_eq_true hlater)) hend

/-- Where no gap was opened, a store is caught up after a pass that was not cut short. -/
lemma Grown.caughtUp_of_not_opensGap {parents new : List Task}
    (h : Grown now settings.horizon s parents new) (hs : s.WellFormed)
    (hdue : ∀ t ∈ s.tasks, ∀ due, t.due = some due → due ≤ .lastRegular)
    (hparents : parents.Perm (s.tasks.filter Task.isActiveParent))
    (htasks : s'.tasks = (s.added new).tasks.map (Task.afterExpiry settings now))
    (hfew : ∀ p, (s'.children p).length < (s.children p).length + mostPerPass)
    (henabled : settings.enabled = true) (hnogap : ¬ OpensGap settings now s s') :
    s'.CaughtUp settings.horizon now := by
  intro p hp hactive hgoes
  by_contra hshort
  -- the series goes on in the end, so that the walk came to its parent
  have hstored : p ∈ s.tasks := h.mem_of_isActiveParent
    (mem_of_isActiveParent_afterExpiry htasks hp hactive) hactive
  have hparent : p ∈ parents := hparents.mem_iff.mpr (List.mem_filter.mpr ⟨hstored, hactive⟩)
  have hmade : (childrenIn new p.id).length < mostPerPass := by
    have := hfew p.id
    rw [length_children_afterExpiry htasks rfl] at this
    omega
  have henough := h.enough hs hdue hparent hstored hmade
    ((goesOn_afterExpiry htasks h.wellFormed.sound p).mp hgoes)
  -- enough was ahead after the walk, so that an occurrence ahead was deleted, and an old one
  have hless : pendingAhead (s'.children p.id) now <
      pendingAhead ((s.added new).children p.id) now := by omega
  obtain ⟨c, hc, hexpires, hahead⟩ := exists_expires_of_pendingAhead_lt htasks hless
  have hold := h.mem_children_of_expires hs hdue hparent hstored hc hexpires hahead
  exact hnogap ⟨henabled, p, hp, hactive, ⟨c, hold, hexpires, hahead⟩, hgoes, by omega⟩

/-! ## The second pass -/

/-- A second pass at the same instant does nothing, unless the first one has opened a gap. -/
theorem trigger_again_iff {r : TriggerReport} (h : Tracker.Reachable s)
    (hok : s.trigger draw settings now = .ok (r, s'))
    (hfew : ∀ p, (s'.children p).length < (s.children p).length + mostPerPass)
    (draw' : Nat → TaskId) :
    s'.trigger draw' settings now = .ok (⟨0, 0⟩, s') ↔ ¬ OpensGap settings now s s' := by
  have hs := h.wellFormed
  obtain ⟨s₁, hgenerate, hexpire, hcheck⟩ := trigger_eq_ok_iff.mp hok
  obtain ⟨parents, new, hgrown, hx, hperm⟩ := generate_eq_ok hs hgenerate
  obtain ⟨hcount, rfl⟩ := Prod.mk.inj hx
  obtain ⟨hs', hsame, htasks⟩ := expireUnder_eq_ok hgrown.wellFormed hexpire
  by_cases hnothing : r.generated + r.expired = 0
  · -- the first pass did nothing, so that the second one is the first one again
    have hnew : new = [] := List.length_eq_zero_iff.mp (by omega)
    have heq : s' = s := by rw [hsame (by omega), hnew, added_nil]
    obtain ⟨generated, expired⟩ := r
    obtain ⟨rfl, rfl⟩ : generated = 0 ∧ expired = 0 := Nat.add_eq_zero_iff.mp hnothing
    subst heq
    have hcaught := (trigger_eq_nothing_iff hs).mp hok
    exact ⟨fun _ => not_opensGap_self fun henabled => (hcaught.1 henabled).2,
      fun _ => (trigger_eq_nothing_iff hs).mpr hcaught⟩
  · -- the first pass has checked its result, so that all tasks in it are readable
    have hreadable := (check_eq_ok_iff hs').mp (hcheck hnothing)
    have hdue : ∀ t ∈ s.tasks, ∀ due, t.due = some due → due ≤ .lastRegular := fun t ht =>
      due_le_of_readable htasks hgrown.wellFormed.sound hreadable t (mem_tasks_added ht)
    rw [trigger_eq_nothing_iff hs']
    constructor
    · rintro ⟨hcaught, -⟩ ⟨henabled, p, hp, hactive, -, hgoes, hshort⟩
      have henough := (hcaught henabled).2 p hp hactive hgoes
      omega
    · intro hnogap
      refine ⟨fun henabled => ⟨fun p hp _ => ⟨hreadable p hp, fun c hc => ?_⟩, ?_⟩,
        fun hpolicy => ⟨hreadable, fun t ht => ?_⟩⟩
      · exact hreadable c (mem_childrenIn.mp hc).1
      · rw [if_pos henabled] at hperm
        exact hgrown.caughtUp_of_not_opensGap hs hdue hperm htasks hfew henabled hnogap
      · rw [htasks] at ht
        obtain ⟨u, -, rfl⟩ := List.mem_map.mp ht
        exact isPast_afterExpiry hpolicy

end Store

/-! ## A run in which the second pass acts -/

namespace Tracker

/-- A tracker that deletes what has expired, at nine o'clock on 2026-10-19. -/
def expiring (s : Store) : Tracker :=
  { start with
    store := s
    config := { recurrence := { policy := .expire } } }

/-- A daily task, due for the first time the day after. -/
def daily : Task :=
  { Task.fresh (TaskId.drawn 1 0) "x" start.now with
    due := some ⟨1792454400, 0, by decide⟩
    recur := some (.calendar .day 1 false) }

/-- What is typed to enter the daily task. -/
def dailyFields : Fields := { due := some "tomorrow", recur := some "daily" }

/-- The first occurrence of the daily task. -/
def firstDaily : Task :=
  occurrence daily (TaskId.drawn 1 1) ⟨1792454400, 0, by decide⟩ 0 start.now

/-- An edit that lets a task expire the day before. -/
def expireYesterday : Edit :=
  { expiry := some (some ⟨1792281600, 0, by decide⟩) }

/-- What is typed for that edit. -/
def shortFields : Fields := { expiry := some "yesterday" }

/-- The first occurrence after the edit. -/
def shortDaily : Task :=
  (Mutation.edit expireYesterday).apply start.now firstDaily

/-- The store with the daily task. -/
def dailyStore : Store := ({} : Store).added [daily]

/-- The store with the daily task and its first occurrence. -/
def firstStore : Store := dailyStore.added [firstDaily]

/-- The store after the first occurrence was edited. -/
def shortStore : Store := firstStore.replaced (Store.lastWith [shortDaily])

/-- What is typed for the daily task is read as it is meant. -/
lemma newTask_daily : Fields.newTask (TaskId.drawn 1 0) "x" dailyFields start.now = .ok daily := by
  decide

/-- The daily task is entered. -/
lemma reachable_dailyStore : Reachable dailyStore := by
  have hfresh : HasFreshIds {} (TaskId.drawn 1) := hasFreshIds_empty
  have hrun := @run_add (expiring {}) _ _ _ _ Store.wellFormed_empty rfl hfresh newTask_daily
  exact Reachable.of_run .empty hfresh (congrArg Prod.snd hrun)

/-- A pass generates what the daily task is missing. -/
lemma generate_dailyStore (settings : RecurrenceSettings) (made : List Task)
    (henabled : settings.enabled = true)
    (hmade : materialize daily [] start.now settings.horizon (fun i => TaskId.drawn 1 (1 + i)) = made)
    (hids : ((dailyStore.tasks ++ made).map Task.id).Nodup)
    (hplaces : ((dailyStore.tasks ++ made).filterMap Integrity.place?).Nodup)
    (hparent : ∀ t ∈ made, t.parent = some daily.id) :
    dailyStore.generate (TaskId.drawn 1) settings start.now =
      .ok (made.length, dailyStore.added made) := by
  have hparents : dailyStore.activeParents = .ok [daily] := by
    rw [show dailyStore.activeParents = .ok ([daily].mergeSort Store.entryLe) from rfl,
      List.mergeSort_singleton]
  have hchildren : dailyStore.childrenOf daily.id = .ok [] := by
    rw [show dailyStore.childrenOf daily.id = .ok ([].mergeSort Store.maskLe) from rfl,
      List.mergeSort_nil]
  have hinsert : dailyStore.insertDrawn made = .ok (dailyStore.added made) := by
    rw [Store.insertDrawn_eq reachable_dailyStore.wellFormed.sound hids hplaces,
      Store.permit_eq_ok rfl]
    · rfl
    · intro t ht p hp
      rw [hparent t ht] at hp
      rw [← Option.some.inj hp]
      decide
  have hfor : dailyStore.generateFor (TaskId.drawn 1) start.now settings.horizon daily =
      .ok (made.length, dailyStore.added made) := by
    have hfits : Fits daily [] start.now settings.horizon := fits_of_room (by decide)
    refine Store.generateFor_eq_ok_iff.mpr ⟨[], hchildren, hfits, dailyStore.added made, ?_, ?_⟩
    · rw [show dailyStore.issued = 1 from rfl, hmade]
      exact hinsert
    · rw [show dailyStore.issued = 1 from rfl, hmade]
  rw [Store.generate_eq, if_pos henabled]
  refine bind_eq_ok.mpr ⟨[daily], mapError_eq_ok.mpr hparents, ?_⟩
  refine bind_eq_ok.mpr ⟨(made.length, dailyStore.added made), map_eq_ok.mpr ⟨_, hfor, ?_⟩, rfl⟩
  rw [Nat.zero_add]

/-- A pass generates the first occurrence. -/
lemma reachable_firstStore : Reachable firstStore := by
  have hfresh : HasFreshIds dailyStore (TaskId.drawn 1) :=
    Store.fresh_of_map_id_eq rfl (by decide)
  have hmade : materialize daily [] start.now 1 (fun i => TaskId.drawn 1 (1 + i)) = [firstDaily] := by
    rw [materialize_of_some rfl rfl]
    rfl
  have hgenerate : dailyStore.generate (TaskId.drawn 1) { policy := .expire } start.now =
      .ok (1, firstStore) :=
    generate_dailyStore _ [firstDaily] rfl hmade (by decide) (by decide) fun t ht => by
      rw [List.mem_singleton.mp ht]
      rfl
  have hwf : firstStore.WellFormed :=
    (hgenerate ▸ Store.ends_generate reachable_dailyStore.wellFormed { policy := .expire }
      (hfresh.mono (Nat.le_add_right _ _))).of_ok
  have hpass : dailyStore.trigger (TaskId.drawn 1) { policy := .expire } start.now =
      .ok (⟨1, 0⟩, firstStore) := by
    rw [Store.trigger_eq_ok_iff]
    refine ⟨firstStore, hgenerate, ?_, fun _ => (Store.check_eq_ok_iff hwf).mpr (by decide)⟩
    exact (Store.expireUnder_eq_nothing_iff hwf).mpr fun _ => by decide
  have hrun : ((expiring dailyStore).run (TaskId.drawn 1) .gc).2 = expiring firstStore :=
    congrArg Prod.snd (run_gc hpass)
  exact Reachable.of_run reachable_dailyStore hfresh hrun

/-- As long as enough occurrences of the daily task are ahead, no other one is generated. -/
lemma generate_of_ahead {s : Store} {settings : RecurrenceSettings} (h : s.WellFormed)
    (hreadable : ∀ t ∈ s.tasks, t.Readable) (hparents : s.tasks.filter Task.isActiveParent = [daily])
    (hahead : settings.horizon ≤ pendingAhead (s.children daily.id) start.now) :
    s.generate (TaskId.drawn 1) settings start.now = .ok (0, s) := by
  refine (Store.generate_eq_nothing_iff h).mpr fun _ => ⟨fun p hp _ => ⟨hreadable p hp, ?_⟩, ?_⟩
  · exact fun c hc => hreadable c (mem_childrenIn.mp hc).1
  · intro p hp hactive _
    have hmem : p ∈ s.tasks.filter Task.isActiveParent := List.mem_filter.mpr ⟨hp, hactive⟩
    rw [hparents] at hmem
    rw [List.mem_singleton.mp hmem]
    exact hahead

/-- A pass does nothing as long as the occurrence is as it was made. -/
lemma trigger_firstStore :
    firstStore.trigger (TaskId.drawn 1) { policy := .expire } start.now =
      .ok (⟨0, 0⟩, firstStore) := by
  have hwf := reachable_firstStore.wellFormed
  have hreadable : ∀ t ∈ firstStore.tasks, t.Readable := by decide
  rw [Store.trigger_eq_ok_iff]
  refine ⟨firstStore, generate_of_ahead hwf hreadable (by decide) (by decide), ?_,
    fun hsome => absurd rfl hsome⟩
  exact (Store.expireUnder_eq_nothing_iff hwf).mpr fun _ => ⟨hreadable, by decide⟩

lemma address_firstStore :
    (expiring firstStore).address (TaskId.drawn 1) (TaskId.drawn 1 1).text =
      .ok (firstStore, firstDaily, [firstDaily]) := by
  have hfind : firstStore.find (TaskId.drawn 1 1).text = .ok firstDaily := by decide
  have hsiblings : siblings firstStore firstDaily = .ok [firstDaily] := by
    rw [show siblings firstStore firstDaily = .ok ([firstDaily].mergeSort Store.maskLe) from rfl,
      List.mergeSort_singleton]
  refine bind_eq_ok.mpr ⟨_, trigger_firstStore, bind_eq_ok.mpr ⟨_, hfind, ?_⟩⟩
  exact bind_eq_ok.mpr ⟨_, hsiblings, rfl⟩

lemma writeBack_firstStore : writeBack firstStore [shortDaily] = .ok shortStore := by
  have hshort : shortStore.WellFormed := reachable_firstStore.wellFormed.replaced fun c hc => by
    rw [List.mem_singleton.mp hc]
    exact ⟨firstDaily, by decide, keeps_apply _ _ _⟩
  refine bind_eq_ok.mpr ⟨shortStore, ?_, ?_⟩
  · exact mapError_eq_ok.mpr (Store.updateAll_eq_ok rfl (by decide))
  · exact bind_eq_ok.mpr ⟨(), (Store.check_eq_ok_iff hshort).mpr (by decide), rfl⟩

/-- The first occurrence is edited. -/
lemma reachable_shortStore : Reachable shortStore := by
  have hfresh : HasFreshIds firstStore (TaskId.drawn 1) :=
    Store.fresh_of_map_id_eq rfl (by decide)
  have hedit : shortFields.toEdit start.now = .ok expireYesterday := by decide
  have hpropose : (expiring firstStore).coordinator.propose (.edit expireYesterday) firstDaily
      [firstDaily] start.now = (.ok ⟨.applied, [shortDaily]⟩, ⟨.applied, .fixed true, []⟩) := by
    decide
  have hrun : ((expiring firstStore).run (TaskId.drawn 1)
      (.modify (TaskId.drawn 1 1).text shortFields)).2 = expiring shortStore := by
    show ((expiring firstStore).modify (TaskId.drawn 1) (TaskId.drawn 1 1).text shortFields).2 = _
    unfold modify
    rw [show (expiring firstStore).now = start.now from rfl, hedit]
    show ((expiring firstStore).propagate _ _ _).2 = _
    unfold propagate
    rw [address_firstStore]
    dsimp only
    rw [show (expiring firstStore).now = start.now from rfl, hpropose]
    dsimp only
    rw [writeBack_firstStore]
    rfl
  exact Reachable.of_run reachable_firstStore hfresh hrun

/-- The occurrence as a pass leaves it. -/
def deletedDaily : Task :=
  { shortDaily with
    status := .deleted
    finished := some start.now }

/-- The first pass over the edited occurrence deletes it, and that is all. -/
lemma exists_trigger_shortStore :
    ∃ s', shortStore.trigger (TaskId.drawn 1) { policy := .expire } start.now = .ok (⟨0, 1⟩, s') ∧
      s'.WellFormed ∧ s'.tasks = [daily, deletedDaily] := by
  have hwf := reachable_shortStore.wellFormed
  have hreadable : ∀ t ∈ shortStore.tasks, t.Readable := by decide
  obtain ⟨⟨n, s'⟩, hexpire⟩ := Store.exists_expire_eq_ok hwf rfl hreadable start.now
  obtain ⟨hs', hcount, -, htasks⟩ := Store.expire_eq_ok hwf hexpire
  have hone : n = 1 := hcount.trans (by decide)
  have hlist : s'.tasks = [daily, deletedDaily] := htasks.trans (by decide)
  refine ⟨s', ?_, hs', hlist⟩
  rw [Store.trigger_eq_ok_iff]
  refine ⟨shortStore, generate_of_ahead hwf hreadable (by decide) (by decide),
    hone ▸ hexpire, fun _ => ?_⟩
  rw [Store.check_eq_ok_iff hs', hlist]
  decide

lemma length_children_lt {s' : Store} (h : s'.tasks = [daily, deletedDaily]) (p : TaskId) :
    (s'.children p).length < (shortStore.children p).length + mostPerPass := by
  have htwo : (s'.children p).length ≤ 2 := by
    unfold Store.children childrenIn
    rw [h]
    exact List.length_filter_le _ _
  have hcap : mostPerPass = 10000 := rfl
  omega

/-- Behind the deleted occurrence the series goes on with none ahead, so that the next pass acts. -/
lemma trigger_ne_nothing {s' : Store} (hs' : s'.WellFormed) (hlist : s'.tasks = [daily, deletedDaily])
    (draw : Nat → TaskId) :
    s'.trigger draw { policy := .expire } start.now ≠ .ok (⟨0, 0⟩, s') := by
  intro hagain
  have hcaught := (((Store.trigger_eq_nothing_iff hs').mp hagain).1 rfl).2
  have hchildren : s'.children daily.id = [deletedDaily] := by
    unfold Store.children
    rw [hlist]
    decide +kernel
  have hgoes : GoesOn daily (s'.children daily.id) := by
    rw [hchildren]
    exact ⟨.calendar .day 1 false, ⟨1792454400, 0, by decide⟩, ⟨1792540800, 0, by decide⟩, rfl, rfl,
      by decide +kernel, rfl⟩
  have henough := hcaught daily (by rw [hlist]; exact List.mem_cons_self) rfl hgoes
  rw [hchildren, show pendingAhead [deletedDaily] start.now = 0 by decide +kernel] at henough
  exact absurd henough (by decide)

/-- The first pass makes less than it may and the second one at the same instant still acts: the
occurrence that was deleted is replaced. -/
theorem exists_second_pass_acts :
    ∃ s', Reachable shortStore ∧
      shortStore.trigger (TaskId.drawn 1) { policy := .expire } start.now = .ok (⟨0, 1⟩, s') ∧
      (∀ p, (s'.children p).length < (shortStore.children p).length + mostPerPass) ∧
      ∀ draw, s'.trigger draw { policy := .expire } start.now ≠ .ok (⟨0, 0⟩, s') := by
  obtain ⟨s', hok, hs', hlist⟩ := exists_trigger_shortStore
  exact ⟨s', reachable_shortStore, hok, length_children_lt hlist, trigger_ne_nothing hs' hlist⟩

/-- The first pass over the edited occurrence, which was ahead, deletes it and so opens a gap: this is why
the second one acts. -/
theorem trigger_again_shortStore :
    ∃ s', (Reachable shortStore ∧
      shortStore.trigger (TaskId.drawn 1) { policy := .expire } start.now = .ok (⟨0, 1⟩, s') ∧
      ∀ p, (s'.children p).length < (shortStore.children p).length + mostPerPass) ∧
      s'.tasks = [daily, deletedDaily] ∧
      s'.trigger (TaskId.drawn 1) { policy := .expire } start.now ≠ .ok (⟨0, 0⟩, s') ∧
      Store.OpensGap { policy := .expire } start.now shortStore s' := by
  obtain ⟨s', hok, hs', hlist⟩ := exists_trigger_shortStore
  have hfew := length_children_lt hlist
  have hacts := trigger_ne_nothing hs' hlist (TaskId.drawn 1)
  have hgap := Store.trigger_again_iff reachable_shortStore hok hfew (TaskId.drawn 1)
  exact ⟨s', ⟨reachable_shortStore, hok, hfew⟩, hlist, hacts,
    Classical.not_not.mp (mt hgap.mpr hacts)⟩

end Tracker

end TaskSeries
