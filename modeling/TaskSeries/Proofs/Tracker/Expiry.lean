import TaskSeries.Proofs.Tracker.Generation

/-!
# What a pass leaves behind

Expiring replaces every task whose expiry has passed by its deleted self and leaves the others alone
(`Store.expire_eq_ok`). With what generating leaves behind this says when a whole pass does nothing
(`Store.trigger_eq_nothing_iff`).
-/

namespace TaskSeries

open TaskSeries.Calendar TaskSeries.Series

/-- A pending task whose expiry has passed is deleted under the policy of expiring. -/
def Task.expires (settings : RecurrenceSettings) (now : Instant) (t : Task) : Bool :=
  settings.policy = .expire && Store.isPast now t

/-- A task after those whose expiry has passed were deleted. -/
def Task.afterExpiry (settings : RecurrenceSettings) (now : Instant) (t : Task) : Task :=
  if t.expires settings now then ((Mutation.delete.apply now t).inPlaceOf t).stored else t

section
variable {settings : RecurrenceSettings} {now : Instant} {t : Task}

/-- Expiry keeps what the structure of series rests on. -/
lemma keeps_afterExpiry : Keeps t (t.afterExpiry settings now) := by
  unfold Task.afterExpiry
  split_ifs <;> exact ⟨rfl, rfl, rfl, fun h => h⟩

lemma due_afterExpiry (ht : t.stored = t) : (t.afterExpiry settings now).due = t.due := by
  unfold Task.afterExpiry
  split_ifs
  · show t.due.map Instant.stored = t.due
    exact congrArg Task.due ht
  · rfl

/-- A parent whose series goes on after the deletions was left alone by them. -/
lemma afterExpiry_eq_self (h : (t.afterExpiry settings now).isActiveParent = true) :
    t.afterExpiry settings now = t := by
  unfold Task.afterExpiry at h ⊢
  split_ifs at h ⊢ with hexpires
  · unfold Task.isActiveParent at h
    rw [Bool.and_eq_true] at h
    exact absurd h.2 Bool.false_ne_true
  · rfl

/-- After expiry nothing is left that has expired. -/
lemma isPast_afterExpiry (hpolicy : settings.policy = .expire) :
    Store.isPast now (t.afterExpiry settings now) = false := by
  unfold Task.afterExpiry
  split_ifs with hexpires
  · rfl
  · unfold Task.expires at hexpires
    simpa [hpolicy] using hexpires

/-- The deletions take nothing from what is ahead but the tasks that expire. -/
lemma isAhead_afterExpiry (h : ¬ (t.expires settings now = true ∧ isAhead now t = true)) :
    isAhead now (t.afterExpiry settings now) = isAhead now t := by
  unfold Task.afterExpiry
  split_ifs with hexpires
  · have hnot : isAhead now t = false := Bool.eq_false_iff.mpr fun hahead => h ⟨hexpires, hahead⟩
    rw [hnot]
    rfl
  · rfl

end

namespace Store

variable {s : Store} {draw : Nat → TaskId} {now : Instant} {settings : RecurrenceSettings}

/-! ## Expiring -/

/-- Expiring that succeeds has deleted the tasks whose expiry had passed. -/
lemma expire_eq_ok {x : Nat × Store} (h : s.WellFormed) (hok : s.expire now = .ok x) :
    x.2.WellFormed ∧ x.1 = (s.tasks.filter (isPast now)).length ∧ (x.1 = 0 → x.2 = s) ∧
      x.2.tasks = s.tasks.map fun t =>
        if isPast now t then ((Mutation.delete.apply now t).inPlaceOf t).stored else t := by
  obtain ⟨past, hpast, rfl⟩ := (hok ▸ ends_expire h now).of_ok
  refine ⟨h.changed past (keeps_apply _ _), hpast.length_eq, fun hzero => ?_, ?_⟩
  · rw [List.length_eq_zero_iff.mp hzero, changed_nil]
  · rw [tasks_changed h.sound]
    refine List.map_congr_left fun t ht => ?_
    have hpast_iff : t ∈ past ↔ isPast now t = true := by
      rw [hpast.mem_iff, List.mem_filter]
      exact and_iff_right ht
    rw [if_congr hpast_iff rfl rfl]
    rfl

/-- Expiring succeeds in a store that may be written when all tasks are readable. -/
lemma exists_expire_eq_ok (h : s.WellFormed) (hwrite : s.readOnly = false)
    (hreadable : ∀ t ∈ s.tasks, t.Readable) (now : Instant) : ∃ x, s.expire now = .ok x := by
  obtain ⟨tasks, htasks⟩ := (exists_all_eq_ok_iff h.sound).mpr hreadable
  have hperm := (htasks ▸ h.ends_all).of_ok
  have hstored : ∀ t ∈ tasks.filter (isPast now), t ∈ s.tasks := by
    intro t ht
    exact hperm.mem_iff.mp (List.mem_filter.mp ht).1
  have hupdate := updateAll_map_eq_ok h hstored (fun t => (keeps_apply .delete now t).id) hwrite
  unfold expire
  exact ⟨_, bind_eq_ok.mpr ⟨tasks, htasks, bind_eq_ok.mpr ⟨_, hupdate, rfl⟩⟩⟩

/-- Expiring does nothing exactly when all tasks are readable and the expiry of none has passed. -/
lemma expire_eq_nothing_iff (h : s.WellFormed) :
    s.expire now = .ok (0, s) ↔
      (∀ t ∈ s.tasks, t.Readable) ∧ ∀ t ∈ s.tasks, isPast now t = false := by
  have hread := exists_all_eq_ok_iff h.sound
  constructor
  · intro hok
    have hnone := (expire_eq_ok h hok).2.1
    unfold expire at hok
    obtain ⟨tasks, htasks, -⟩ := bind_eq_ok.mp hok
    refine ⟨hread.mp ⟨tasks, htasks⟩, fun t ht => ?_⟩
    rw [eq_comm, List.length_eq_zero_iff, List.filter_eq_nil_iff] at hnone
    exact Bool.eq_false_iff.mpr (hnone t ht)
  · rintro ⟨hreadable, hnone⟩
    obtain ⟨tasks, htasks⟩ := hread.mpr hreadable
    have hperm := (htasks ▸ h.ends_all).of_ok
    have hpast : tasks.filter (isPast now) = [] := by
      rw [List.filter_eq_nil_iff]
      exact fun t ht => Bool.eq_false_iff.mp (hnone t (hperm.mem_iff.mp ht))
    unfold expire
    refine bind_eq_ok.mpr ⟨tasks, htasks, ?_⟩
    dsimp only
    rw [hpast, List.map_nil, updateAll_nil]
    rfl

/-! ## Expiring under a policy -/

/-- Expiry that succeeds deletes what has expired under the policy, and leaves the store alone if there
is nothing. -/
lemma expireUnder_eq_ok {n : Nat} {s' : Store} (h : s.WellFormed)
    (hok : s.expireUnder settings now = .ok (n, s')) :
    s'.WellFormed ∧ (n = 0 → s' = s) ∧ s'.tasks = s.tasks.map (Task.afterExpiry settings now) := by
  unfold Task.afterExpiry Task.expires
  unfold expireUnder at hok
  split_ifs at hok with hpolicy
  · obtain ⟨hwf, -, hsame, htasks⟩ := expire_eq_ok h hok
    refine ⟨hwf, hsame, ?_⟩
    simp only [hpolicy, decide_true, Bool.true_and]
    exact htasks
  · obtain ⟨-, rfl⟩ := Prod.mk.inj (Except.ok.inj hok)
    refine ⟨h, fun _ => rfl, ?_⟩
    simp [hpolicy]

/-- Expiry does nothing exactly when the policy asks for none, or all tasks can be read and none has
expired. -/
lemma expireUnder_eq_nothing_iff (h : s.WellFormed) :
    s.expireUnder settings now = .ok (0, s) ↔ (settings.policy = .expire →
      (∀ t ∈ s.tasks, t.Readable) ∧ ∀ t ∈ s.tasks, isPast now t = false) := by
  rw [← expire_eq_nothing_iff h]
  unfold expireUnder
  split_ifs with hpolicy
  · exact ⟨fun hok _ => hok, fun hok => hok hpolicy⟩
  · exact ⟨fun _ hfalse => absurd hfalse hpolicy, fun _ => rfl⟩

/-! ## The whole pass -/

/-- What a pass does after it has generated: it expires, and checks the result when either has done
something. -/
def finish (settings : RecurrenceSettings) (now : Instant) (x : Nat × Store) :
    Except Fault (TriggerReport × Store) :=
  (x.2.expireUnder settings now).mapError Fault.store >>= fun y =>
    if x.1 + y.1 = 0 then .ok (⟨x.1, y.1⟩, y.2) else y.2.check >>= fun _ => .ok (⟨x.1, y.1⟩, y.2)

/-- A pass, the parents visited in the order that `order` puts them in. -/
def triggerAlong (order : List Task → List Task) (draw : Nat → TaskId)
    (settings : RecurrenceSettings) (now : Instant) (s : Store) :
    Except Fault (TriggerReport × Store) :=
  s.generateAlong order draw settings now >>= finish settings now

/-- The parents are visited as they are read. -/
lemma trigger_eq_triggerAlong (settings : RecurrenceSettings) :
    s.trigger draw settings now = s.triggerAlong id draw settings now :=
  trigger_eq settings

/-- A pass succeeds when generating and expiring do, and the result passes the checks unless nothing was
done. -/
lemma triggerAlong_eq_ok_iff {order : List Task → List Task} {r : TriggerReport} {s' : Store} :
    s.triggerAlong order draw settings now = .ok (r, s') ↔ ∃ s₁,
      s.generateAlong order draw settings now = .ok (r.generated, s₁) ∧
      s₁.expireUnder settings now = .ok (r.expired, s') ∧
      (r.generated + r.expired ≠ 0 → s'.check = .ok ()) := by
  unfold triggerAlong finish
  rw [bind_eq_ok]
  constructor
  · rintro ⟨⟨generated, s₁⟩, hgenerate, hok⟩
    obtain ⟨⟨expired, s₂⟩, hexpire, hok⟩ := bind_eq_ok.mp hok
    rw [mapError_eq_ok] at hexpire
    split_ifs at hok with hnothing
    · obtain ⟨rfl, rfl⟩ := Prod.mk.inj (Except.ok.inj hok)
      exact ⟨s₁, hgenerate, hexpire, fun hsome => absurd hnothing hsome⟩
    · obtain ⟨_, hcheck, hok⟩ := bind_eq_ok.mp hok
      obtain ⟨rfl, rfl⟩ := Prod.mk.inj (Except.ok.inj hok)
      exact ⟨s₁, hgenerate, hexpire, fun _ => hcheck⟩
  · rintro ⟨s₁, hgenerate, hexpire, hcheck⟩
    refine ⟨(r.generated, s₁), hgenerate, ?_⟩
    refine bind_eq_ok.mpr ⟨(r.expired, s'), mapError_eq_ok.mpr hexpire, ?_⟩
    dsimp only
    split_ifs with hnothing
    · rfl
    · exact bind_eq_ok.mpr ⟨(), hcheck hnothing, rfl⟩

/-- A pass generates, lets tasks expire, and checks the store if it did anything. -/
lemma trigger_eq_ok_iff {r : TriggerReport} {s' : Store} :
    s.trigger draw settings now = .ok (r, s') ↔ ∃ s₁,
      s.generate draw settings now = .ok (r.generated, s₁) ∧
      s₁.expireUnder settings now = .ok (r.expired, s') ∧
      (r.generated + r.expired ≠ 0 → s'.check = .ok ()) := by
  rw [trigger_eq_triggerAlong]
  exact triggerAlong_eq_ok_iff

/-- A well-formed store passes the checks exactly when all its tasks are readable. -/
lemma check_eq_ok_iff (h : s.WellFormed) : s.check = .ok () ↔ ∀ t ∈ s.tasks, t.Readable := by
  rw [← exists_all_eq_ok_iff h.sound]
  unfold check
  constructor
  · intro hok
    obtain ⟨tasks, htasks, -⟩ := bind_eq_ok.mp hok
    exact ⟨tasks, mapError_eq_ok.mp htasks⟩
  · rintro ⟨tasks, htasks⟩
    have hperm := (htasks ▸ h.ends_all).of_ok
    exact bind_eq_ok.mpr ⟨tasks, mapError_eq_ok.mpr htasks, Integrity.check_eq_ok h.structured hperm⟩

/-- A pass does nothing exactly when the store is caught up and no expiry has passed that the policy
looks at, what it reads being readable. -/
lemma trigger_eq_nothing_iff (h : s.WellFormed) :
    s.trigger draw settings now = .ok (⟨0, 0⟩, s) ↔
      (settings.enabled = true →
        (∀ p ∈ s.tasks, p.isActiveParent = true →
          p.Readable ∧ ∀ c ∈ s.children p.id, c.Readable) ∧ s.CaughtUp settings.horizon now) ∧
      (settings.policy = .expire →
        (∀ t ∈ s.tasks, t.Readable) ∧ ∀ t ∈ s.tasks, isPast now t = false) := by
  rw [trigger_eq_ok_iff, ← expireUnder_eq_nothing_iff h]
  constructor
  · rintro ⟨s₁, hgenerate, hok, -⟩
    obtain rfl := eq_of_generate_eq_nothing h hgenerate
    exact ⟨(generate_eq_nothing_iff h).mp hgenerate, hok⟩
  · rintro ⟨hcaught, hok⟩
    exact ⟨s, (generate_eq_nothing_iff h).mpr hcaught, hok, fun hsome => absurd rfl hsome⟩

/-- Under the gate policy a pass does nothing where no series goes on. -/
lemma trigger_eq_nothing_of_gate (h : s.WellFormed) (hpolicy : settings.policy = .gate)
    (hnone : ∀ p ∈ s.tasks, ¬ p.isActiveParent = true) :
    s.trigger draw settings now = .ok (⟨0, 0⟩, s) := by
  rw [trigger_eq_nothing_iff h]
  refine ⟨fun _ => ⟨fun p hp hactive => absurd hactive (hnone p hp),
    fun p hp hactive => absurd hactive (hnone p hp)⟩, fun hexpire => ?_⟩
  rw [hpolicy] at hexpire
  exact absurd hexpire nofun

end Store

end TaskSeries
