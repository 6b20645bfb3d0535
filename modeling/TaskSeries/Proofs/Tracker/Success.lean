import TaskSeries.Proofs.Tracker.Pass

/-!
# When a pass succeeds

A pass reads the parents whose series go on with their occurrences, all tasks under the policy of
expiring, and all tasks once more when it has done something. It succeeds exactly when these come back
from the store, what it has written itself included, and the places of what it makes fit into 32 bits
(`Store.exists_triggerAlong_eq_ok_iff`). The order in which the parents are visited makes no difference.
-/

namespace TaskSeries

open TaskSeries.Calendar TaskSeries.Series

namespace Store

variable {s s' : Store} {draw : Nat → TaskId} {now : Instant} {horizon : Nat} {parent : Task}
  {settings : RecurrenceSettings} {order : List Task → List Task}

/-! ## Generating -/

/-- A parent can be generated for: its occurrences are readable, and those that it is missing fit. -/
def Generable (now : Instant) (horizon : Nat) (s : Store) (parent : Task) : Prop :=
  (∀ c ∈ s.children parent.id, c.Readable) ∧ Fits parent (s.children parent.id) now horizon

/-- With fresh ids, generating succeeds exactly for a parent that can be generated for. -/
lemma exists_generateFor_eq_ok_iff (h : s.WellFormed) (hwrite : s.readOnly = false)
    (hparent : DefinesSeries s.tasks parent.id) (hfresh : s.Fresh draw mostPerPass) :
    (∃ x, s.generateFor draw now horizon parent = .ok x) ↔ s.Generable now horizon parent := by
  have hfits : ∀ children, s.childrenOf parent.id = .ok children →
      (Fits parent children now horizon ↔ Fits parent (s.children parent.id) now horizon) := by
    intro children hchildren
    have hperm := (hchildren ▸ h.ends_childrenOf parent.id).of_ok
    exact fits_perm hperm ((hperm.filterMap Task.mask).nodup_iff.mpr (h.nodup_masks parent.id)) _ _ _
  unfold Generable
  rw [← exists_childrenOf_eq_ok_iff h.sound]
  constructor
  · rintro ⟨x, hok⟩
    obtain ⟨children, hchildren, hroom, -⟩ := generateFor_eq_ok_iff.mp hok
    exact ⟨⟨children, hchildren⟩, (hfits children hchildren).mp hroom⟩
  · rintro ⟨⟨children, hchildren⟩, hroom⟩
    rw [← hfits children hchildren] at hroom
    have hperm := (hchildren ▸ h.ends_childrenOf parent.id).of_ok
    have hgenerated := generated_of_fresh h hparent hfresh hperm hroom
    have hinsert := insertDrawn_eq h.sound hgenerated.structured.ids hgenerated.structured.places
      (hgenerated.mem_ids hparent)
    rw [permit_eq_ok hwrite] at hinsert
    exact ⟨_, generateFor_eq_ok_iff.mpr ⟨children, hchildren, hroom, _, hinsert, rfl⟩⟩

/-- The walk along parents succeeds exactly when each of them can be generated for. -/
lemma exists_foldlM_generateNext_eq_ok_iff {rest : List Task} {x : Nat × Store}
    (h : CanGenerate draw rest x) (hwrite : x.2.readOnly = false)
    (hids : (rest.map Task.id).Nodup) :
    (∃ y, rest.foldlM (generateNext draw now horizon) x = .ok y) ↔
      ∀ p ∈ rest, x.2.Generable now horizon p := by
  -- what is made for one parent changes nothing for those that are left
  induction rest generalizing x with
  | nil => exact ⟨fun _ p hp => absurd hp List.not_mem_nil, fun _ => ⟨x, rfl⟩⟩
  | cons p rest ih =>
    have hparent := h.2.2 p List.mem_cons_self
    have hfresh : x.2.Fresh draw mostPerPass := h.2.1.mono <| by
      rw [List.length_cons, Nat.succ_mul]
      omega
    rw [List.map_cons, List.nodup_cons] at hids
    have hnext : ∀ y, x.2.generateFor draw now horizon p = .ok y →
        ((∃ z, rest.foldlM (generateNext draw now horizon) (x.1 + y.1, y.2) = .ok z) ↔
          ∀ q ∈ rest, x.2.Generable now horizon q) := by
      intro y hy
      obtain ⟨made, hmade, rfl⟩ := generateFor_eq_ok h.1 hparent hy
      have hstep : generateNext draw now horizon x p = .ok (x.1 + made.length, x.2.added made) :=
        map_eq_ok.mpr ⟨_, hy, rfl⟩
      have hcan : CanGenerate draw rest (x.1 + made.length, x.2.added made) :=
        (hstep ▸ h.ends_generateNext).of_ok
      refine (ih hcan hwrite hids.2).trans (forall₂_congr fun q hq => ?_)
      have hne : q.id ≠ p.id := fun heq => hids.1 (heq ▸ List.mem_map_of_mem hq)
      unfold Generable
      rw [children_added, hmade.childrenIn_of_ne hne, List.map_nil, List.append_nil]
    have hfor := @exists_generateFor_eq_ok_iff _ draw now horizon p h.1 hwrite hparent hfresh
    rw [List.forall_mem_cons, ← hfor, List.foldlM_cons]
    constructor
    · rintro ⟨z, hz⟩
      obtain ⟨_, hstep, hz⟩ := bind_eq_ok.mp hz
      obtain ⟨y, hy, rfl⟩ := map_eq_ok.mp hstep
      exact ⟨⟨y, hy⟩, (hnext y hy).mp ⟨z, hz⟩⟩
    · rintro ⟨⟨y, hy⟩, hrest⟩
      obtain ⟨z, hz⟩ := (hnext y hy).mpr hrest
      exact ⟨z, bind_eq_ok.mpr ⟨_, map_eq_ok.mpr ⟨y, hy, rfl⟩, hz⟩⟩

/-- Generating succeeds exactly when the parents whose series go on are readable and each of them can be
generated for. -/
lemma exists_generateAlong_eq_ok_iff (h : s.WellFormed) (hwrite : s.readOnly = false)
    (horder : ∀ parents, (order parents).Perm parents)
    (hfresh : s.Fresh draw (s.tasks.length * mostPerPass)) :
    (∃ x, s.generateAlong order draw settings now = .ok x) ↔ (settings.enabled = true →
      ∀ p ∈ s.tasks, p.isActiveParent = true →
        p.Readable ∧ s.Generable now settings.horizon p) := by
  have hread := exists_activeParents_eq_ok_iff h.sound
  -- the parents that were read are the active ones, in whatever order
  have hwalk : ∀ parents, s.activeParents = .ok parents →
      ((∃ x, (order parents).foldlM (generateNext draw now settings.horizon) (0, s) = .ok x) ↔
        ∀ p ∈ s.tasks, p.isActiveParent = true → s.Generable now settings.horizon p) := by
    intro parents hparents
    have hperm := (horder parents).trans (hparents ▸ h.ends_activeParents).of_ok
    have hids : ((order parents).map Task.id).Nodup := by
      rw [(hperm.map Task.id).nodup_iff]
      exact h.structured.ids.sublist (List.filter_sublist.map Task.id)
    rw [exists_foldlM_generateNext_eq_ok_iff (canGenerate_of_perm h hperm hfresh) hwrite hids]
    simp only [hperm.mem_iff, List.mem_filter, and_imp]
  unfold generateAlong
  split_ifs with henabled
  · constructor
    · rintro ⟨x, hok⟩ -
      obtain ⟨parents, hparents, hok⟩ := bind_eq_ok.mp hok
      rw [mapError_eq_ok] at hparents
      intro p hp hactive
      exact ⟨hread.mp ⟨parents, hparents⟩ p hp hactive,
        (hwalk parents hparents).mp ⟨x, hok⟩ p hp hactive⟩
    · intro hall
      obtain ⟨parents, hparents⟩ := hread.mpr fun p hp hactive => (hall henabled p hp hactive).1
      obtain ⟨x, hok⟩ := (hwalk parents hparents).mpr fun p hp hactive =>
        (hall henabled p hp hactive).2
      exact ⟨x, bind_eq_ok.mpr ⟨parents, mapError_eq_ok.mpr hparents, hok⟩⟩
  · exact ⟨fun _ hfalse => absurd hfalse henabled, fun _ => ⟨_, rfl⟩⟩

/-- What was added is readable exactly when the instant of the pass is regular, or there is nothing. -/
lemma Grown.readable_iff {parents new : List Task} (h : Grown now horizon s parents new)
    (hs : s.WellFormed) (hparents : ∀ p ∈ parents, p ∈ s.tasks)
    (hreadable : ∀ t ∈ s.tasks, t.Readable) :
    (∀ t ∈ (s.added new).tasks, t.Readable) ↔ (new ≠ [] → now ≤ .lastRegular) := by
  rw [tasks_added, List.forall_mem_append, List.forall_mem_map]
  constructor
  · rintro ⟨-, hnew⟩ hsome
    obtain ⟨t, ht⟩ := List.exists_mem_of_ne_nil new hsome
    have hentry := (Task.readable_stored_iff t).mp (hnew t ht)
    obtain ⟨p, hp, id, due, mask, rfl⟩ := h.exists_occurrence ht
    exact hentry now List.mem_cons_self
  · intro hregular
    refine ⟨hreadable, fun t ht => (Task.readable_stored_iff t).mpr ?_⟩
    have hnow := hregular (List.ne_nil_of_mem ht)
    obtain ⟨p, hp, hparent⟩ := h.parent t ht
    have hdues : ∀ u ∈ s.tasks, ∀ due, u.due = some due → due ≤ .lastRegular := by
      intro u hu due hdue
      refine hreadable u hu due ?_
      unfold Task.instants
      rw [hdue]
      simp
    obtain ⟨-, hexpiry, due, hdue, hwhole, -⟩ := h.due_of_mem hs hdues hp (hparents p hp)
      (mem_childrenIn.mpr ⟨ht, hparent⟩)
    have hfresh : t.entry = now ∧ t.modified = now ∧ t.finished = none := by
      obtain ⟨q, -, id, _, mask, rfl⟩ := h.exists_occurrence ht
      exact ⟨rfl, rfl, rfl⟩
    have hlast : ∀ i ∈ p.expiry.toList, i ≤ .lastRegular := fun i hi =>
      hreadable p (hparents p hp) i (by simp [Task.instants, hi])
    unfold Task.Readable Task.instants
    rw [hfresh.1, hfresh.2.1, hfresh.2.2, hdue, hexpiry]
    have hnone : ∀ i ∈ ([] : List Instant), i ≤ .lastRegular := fun _ hi =>
      absurd hi List.not_mem_nil
    simp only [List.forall_mem_cons, List.forall_mem_append, Option.toList_none, Option.toList_some]
    exact ⟨hnow, hnow, ⟨hnone, hwhole.le_lastRegular, hnone⟩, hlast⟩

/-- Nothing was added exactly to a store that is caught up. -/
lemma Grown.eq_nil_iff {parents new : List Task} (h : Grown now settings.horizon s parents new)
    (hs : s.WellFormed)
    (hparents : parents.Perm (if settings.enabled then s.tasks.filter Task.isActiveParent else [])) :
    new = [] ↔ (settings.enabled = true → s.CaughtUp settings.horizon now) := by
  have hmade : ∀ p ∈ parents, (childrenIn new p.id = [] ↔
      (GoesOn p (s.children p.id) → settings.horizon ≤ pendingAhead (s.children p.id) now)) := by
    intro p hp
    obtain ⟨children, draw, hperm, hmade⟩ := h.made p hp
    have hmasks := (hperm.filterMap Task.mask).nodup_iff.mpr (hs.nodup_masks p.id)
    rw [hmade, materialize_eq_nil_iff, goesOn_perm hperm hmasks, pendingAhead_perm hperm]
  have hnil : new = [] ↔ ∀ p ∈ parents, childrenIn new p.id = [] := by
    constructor
    · rintro rfl p -
      rfl
    · intro hall
      refine List.eq_nil_iff_forall_not_mem.mpr fun t ht => ?_
      obtain ⟨p, hp, hparent⟩ := h.parent t ht
      exact List.ne_nil_of_mem (mem_childrenIn.mpr ⟨ht, hparent⟩) (hall p hp)
  rw [hnil, forall₂_congr hmade]
  simp only [mem_parents_iff hparents, and_imp]
  exact ⟨fun hall henabled p hp => hall p henabled hp, fun hall p henabled hp => hall henabled p hp⟩

/-! ## Expiring -/

/-- Expiring under a policy succeeds exactly when the tasks are readable, if it reads them. -/
lemma exists_expireUnder_eq_ok_iff (h : s.WellFormed) (hwrite : s.readOnly = false) :
    (∃ x, s.expireUnder settings now = .ok x) ↔
      (settings.policy = .expire → ∀ t ∈ s.tasks, t.Readable) := by
  unfold expireUnder
  split_ifs with hpolicy
  · constructor
    · rintro ⟨x, hok⟩ -
      unfold expire at hok
      obtain ⟨tasks, htasks, -⟩ := bind_eq_ok.mp hok
      exact (exists_all_eq_ok_iff h.sound).mp ⟨tasks, htasks⟩
    · exact fun hreadable => exists_expire_eq_ok h hwrite (hreadable hpolicy) now
  · exact ⟨fun _ hfalse => absurd hfalse hpolicy, fun _ => ⟨_, rfl⟩⟩

/-- Expiring has deleted nothing exactly when nothing had expired. -/
lemma expireUnder_count_eq_zero_iff {n : Nat} (h : s.WellFormed)
    (hok : s.expireUnder settings now = .ok (n, s')) :
    n = 0 ↔ ∀ t ∈ s.tasks, t.expires settings now = false := by
  unfold Task.expires
  unfold expireUnder at hok
  split_ifs at hok with hpolicy
  · rw [show n = _ from (expire_eq_ok h hok).2.1, List.length_eq_zero_iff, List.filter_eq_nil_iff]
    simp [hpolicy]
  · rw [← (Prod.mk.inj (Except.ok.inj hok)).1]
    simp [hpolicy]

/-- A readable task that expires stays readable exactly when the instant of the pass is regular. -/
lemma Task.readable_afterExpiry_iff {t : Task} (ht : t.Readable) :
    (t.afterExpiry settings now).Readable ↔ (t.expires settings now = true → now ≤ .lastRegular) := by
  unfold Task.afterExpiry
  split_ifs with hexpires
  · have hchanged := Task.readable_changedBy_iff ht .delete now
    unfold Mutation.instants at hchanged
    rw [List.forall_mem_singleton] at hchanged
    exact hchanged.trans ⟨fun hnow _ => hnow, fun hnow => hnow hexpires⟩
  · exact ⟨fun _ hfalse => absurd hfalse hexpires, fun _ => ht⟩

/-- Tasks that were read before they were deleted, and all others, are readable after the deletions
exactly when they were before and the instant of the pass is regular, should there be deletions. -/
lemma readable_afterExpiry_iff {s₁ : Store}
    (htasks : s'.tasks = s₁.tasks.map (Task.afterExpiry settings now))
    (hread : settings.policy = .expire → ∀ t ∈ s₁.tasks, t.Readable) :
    (∀ t ∈ s'.tasks, t.Readable) ↔ (∀ t ∈ s₁.tasks, t.Readable) ∧
      ∀ t ∈ s₁.tasks, t.expires settings now = true → now ≤ .lastRegular := by
  rw [htasks, List.forall_mem_map]
  constructor
  · intro hall
    have hreadable : ∀ t ∈ s₁.tasks, t.Readable := by
      intro t ht
      by_cases hexpires : t.expires settings now = true
      · have hpolicy : settings.policy = .expire := by
          unfold Task.expires at hexpires
          rw [Bool.and_eq_true, decide_eq_true_eq] at hexpires
          exact hexpires.1
        exact hread hpolicy t ht
      · have hthis := hall t ht
        unfold Task.afterExpiry at hthis
        rwa [if_neg hexpires] at hthis
    exact ⟨hreadable, fun t ht =>
      (Task.readable_afterExpiry_iff (hreadable t ht)).mp (hall t ht)⟩
  · rintro ⟨hreadable, hregular⟩ t ht
    exact (Task.readable_afterExpiry_iff (hreadable t ht)).mpr (hregular t ht)

/-! ## The whole pass -/

/-- A pass has something to do: a series lacks occurrences, or a task has expired. -/
def Acts (settings : RecurrenceSettings) (now : Instant) (s : Store) : Prop :=
  (settings.enabled = true ∧ ¬ s.CaughtUp settings.horizon now) ∨
    ∃ t ∈ s.tasks, t.expires settings now = true

/-- A pass finds everything that it looks at, and has places for what it makes. -/
structure Passable (settings : RecurrenceSettings) (now : Instant) (s : Store) : Prop where
  /-- Generating reads the parents whose series go on, and their occurrences, and the places of those that
  are missing fit into 32 bits. -/
  generating : settings.enabled = true → ∀ p ∈ s.tasks, p.isActiveParent = true →
    p.Readable ∧ s.Generable now settings.horizon p
  /-- Expiring reads all tasks, and so does a pass that has something to do. -/
  reading : settings.policy = .expire ∨ s.Acts settings now → ∀ t ∈ s.tasks, t.Readable
  /-- What a pass does bears its instant. -/
  writing : s.Acts settings now → now ≤ .lastRegular

/-- A pass at a regular instant succeeds when all tasks are readable and fewer than places by the most
that one pass may make. -/
lemma passable_of_readable (h : s.WellFormed) (hreadable : ∀ t ∈ s.tasks, t.Readable)
    (hnow : now ≤ .lastRegular) (hroom : s.tasks.length + mostPerPass ≤ lastPlace) :
    s.Passable settings now where
  generating _ p hp _ := by
    refine ⟨hreadable p hp, fun c hc => hreadable c (mem_childrenIn.mp hc).1, ?_⟩
    have hnext : nextMask (s.children p.id) = (s.children p.id).length :=
      h.structured.nextMask_eq (.refl _)
    have hle : (s.children p.id).length ≤ s.tasks.length := List.length_filter_le _ _
    exact fits_of_room (by omega)
  reading _ := hreadable
  writing _ := hnow

/-- Something was generated or deleted exactly when there was something to do. -/
lemma Grown.acts_iff {parents new : List Task} {n : Nat}
    (h : Grown now settings.horizon s parents new) (hs : s.WellFormed)
    (hparents : parents.Perm (if settings.enabled then s.tasks.filter Task.isActiveParent else []))
    (hexpire : (s.added new).expireUnder settings now = .ok (n, s')) :
    s.Acts settings now ↔ new.length + n ≠ 0 := by
  have hnew := h.eq_nil_iff hs hparents
  have hcount := expireUnder_count_eq_zero_iff h.wellFormed hexpire
  rw [Ne, Nat.add_eq_zero_iff, List.length_eq_zero_iff, ← not_iff_not, not_not]
  constructor
  · intro hidle
    obtain ⟨hcaught, hnone⟩ := not_or.mp hidle
    have hnil : new = [] := hnew.mpr fun henabled =>
      by_contra fun hshort => hcaught ⟨henabled, hshort⟩
    rw [hnil, added_nil] at hcount
    exact ⟨hnil, hcount.mpr fun t ht =>
      Bool.eq_false_iff.mpr fun hexpires => hnone ⟨t, ht, hexpires⟩⟩
  · rintro ⟨hnil, hzero⟩ (⟨henabled, hshort⟩ | ⟨t, ht, hexpires⟩)
    · exact hshort (hnew.mp hnil henabled)
    · rw [hcount.mp hzero t (mem_tasks_added ht)] at hexpires
      exact absurd hexpires Bool.false_ne_true

/-- A pass succeeds exactly when it finds everything that it looks at, whatever the order in which the
parents are visited. -/
theorem exists_triggerAlong_eq_ok_iff (h : s.WellFormed) (hwrite : s.readOnly = false)
    (horder : ∀ parents, (order parents).Perm parents)
    (hfresh : s.Fresh draw (s.tasks.length * mostPerPass)) :
    (∃ x, s.triggerAlong order draw settings now = .ok x) ↔ s.Passable settings now := by
  have hgenerating := @exists_generateAlong_eq_ok_iff s draw now settings order h hwrite horder hfresh
  constructor
  · rintro ⟨⟨r, s'⟩, hok⟩
    obtain ⟨s₁, hgenerate, hexpire, hcheck⟩ := triggerAlong_eq_ok_iff.mp hok
    obtain ⟨parents, new, hgrown, hx, hparents⟩ := generateAlong_eq_ok h horder hgenerate
    obtain ⟨hcount, rfl⟩ := Prod.mk.inj hx
    obtain ⟨hs', -, htasks⟩ := expireUnder_eq_ok hgrown.wellFormed hexpire
    have hread := (exists_expireUnder_eq_ok_iff hgrown.wellFormed hwrite).mp ⟨_, hexpire⟩
    -- a pass that has done something has found its own result readable
    have hacted : s.Acts settings now → (∀ t ∈ (s.added new).tasks, t.Readable) ∧
        ∀ t ∈ (s.added new).tasks, t.expires settings now = true → now ≤ .lastRegular := by
      intro hacts
      have hsome := (hgrown.acts_iff h hparents hexpire).mp hacts
      rw [← hcount] at hsome
      exact (readable_afterExpiry_iff htasks hread).mp ((check_eq_ok_iff hs').mp (hcheck hsome))
    have hreadable : settings.policy = .expire ∨ s.Acts settings now →
        ∀ t ∈ s.tasks, t.Readable := by
      rintro (hpolicy | hacts) t ht
      · exact hread hpolicy t (mem_tasks_added ht)
      · exact (hacted hacts).1 t (mem_tasks_added ht)
    refine ⟨hgenerating.mp ⟨_, hgenerate⟩, hreadable, fun hacts => ?_⟩
    obtain ⟨hall, hexpired⟩ := hacted hacts
    rcases id hacts with ⟨henabled, hshort⟩ | ⟨t, ht, hexpires⟩
    · have hne : new ≠ [] := fun hnil => hshort ((hgrown.eq_nil_iff h hparents).mp hnil henabled)
      exact (hgrown.readable_iff h (fun p => mem_of_mem_parents hparents)
        (hreadable (.inr hacts))).mp hall hne
    · exact hexpired t (mem_tasks_added ht) hexpires
  · intro hpass
    obtain ⟨⟨n, s₁⟩, hgenerate⟩ := hgenerating.mpr hpass.generating
    obtain ⟨parents, new, hgrown, hx, hparents⟩ := generateAlong_eq_ok h horder hgenerate
    obtain ⟨rfl, rfl⟩ := Prod.mk.inj hx
    -- what was generated is readable when the rest is
    have hadded : (∀ t ∈ s.tasks, t.Readable) → ∀ t ∈ (s.added new).tasks, t.Readable := by
      intro hall
      refine (hgrown.readable_iff h (fun p => mem_of_mem_parents hparents) hall).mpr fun hne => ?_
      refine hpass.writing (by_contra fun hidle => hne ?_)
      exact (hgrown.eq_nil_iff h hparents).mpr fun henabled =>
        by_contra fun hshort => hidle (.inl ⟨henabled, hshort⟩)
    have hread : settings.policy = .expire → ∀ t ∈ (s.added new).tasks, t.Readable :=
      fun hpolicy => hadded (hpass.reading (.inl hpolicy))
    obtain ⟨⟨m, s'⟩, hexpire⟩ :=
      (exists_expireUnder_eq_ok_iff hgrown.wellFormed hwrite).mpr hread
    obtain ⟨hs', -, htasks⟩ := expireUnder_eq_ok hgrown.wellFormed hexpire
    refine ⟨(⟨new.length, m⟩, s'), triggerAlong_eq_ok_iff.mpr
      ⟨_, hgenerate, hexpire, fun hsome => (check_eq_ok_iff hs').mpr ?_⟩⟩
    have hacts := (hgrown.acts_iff h hparents hexpire).mpr hsome
    exact (readable_afterExpiry_iff htasks hread).mpr
      ⟨hadded (hpass.reading (.inr hacts)), fun _ _ _ => hpass.writing hacts⟩

end Store

end TaskSeries
