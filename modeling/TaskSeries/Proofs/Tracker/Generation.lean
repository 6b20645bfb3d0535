import TaskSeries.Proofs.Series.GoesOn
import TaskSeries.Proofs.Tracker.Trigger

/-!
# What generating leaves behind

Generating adds new tasks to the store, for each parent exactly what is made for it from the
occurrences it had (`Store.Grown`). Afterwards every series that was not cut short has enough ahead, or
has ended (`Store.Grown.enough`), and generating for a parent once more does nothing exactly then
(`Store.generateFor_eq_nothing_iff`).
-/

namespace TaskSeries

open TaskSeries.Calendar TaskSeries.Series

namespace Store

variable {s : Store} {draw : Nat → TaskId} {now : Instant} {horizon : Nat} {parent : Task}

lemma added_nil (s : Store) : s.added [] = s := by
  unfold added
  rw [List.map_nil, List.append_nil]
  rfl

lemma added_added (s : Store) (made more : List Task) :
    (s.added made).added more = s.added (made ++ more) := by
  unfold added
  simp only [List.map_append, List.append_assoc, List.length_append, Nat.add_assoc]

/-- Tasks that are added stand behind the other children of their parent. -/
lemma children_added (made : List Task) (p : TaskId) :
    (s.added made).children p = s.children p ++ (childrenIn made p).map Task.stored := by
  unfold children
  rw [tasks_added, childrenIn_append, childrenIn_map fun t _ => (keeps_stored t).parent]

lemma Sound.map_stored_children (h : s.Sound) (p : TaskId) :
    (s.children p).map Task.stored = s.children p := by
  unfold children
  rw [← childrenIn_map fun t _ => (keeps_stored t).parent, h.map_stored]

/-- In a well-formed store no place of a series is taken twice. -/
lemma WellFormed.nodup_masks (h : s.WellFormed) (p : TaskId) :
    ((s.children p).filterMap Task.mask).Nodup := by
  unfold children
  rw [h.structured.filterMap_mask p]
  exact List.nodup_range

/-! ## Parents for which nothing is made -/

/-- Generating for a parent does nothing exactly when its occurrences are readable and its series has
ended or has enough of them ahead. -/
lemma generateFor_eq_nothing_iff (h : s.WellFormed) :
    s.generateFor draw now horizon parent = .ok (0, s) ↔
      (∀ c ∈ s.children parent.id, c.Readable) ∧
        (GoesOn parent (s.children parent.id) →
          horizon ≤ pendingAhead (s.children parent.id) now) := by
  have hread := ends_childrenOf h.sound parent.id
  have hmasks := h.nodup_masks parent.id
  constructor
  · intro hok
    obtain ⟨children, hchildren, -, next, -, hok⟩ := generateFor_eq_ok_iff.mp hok
    rw [hchildren] at hread
    obtain ⟨hperm, hreadable⟩ := hread.of_ok
    have hmade := List.length_eq_zero_iff.mp (Prod.mk.inj hok).1.symm
    rw [materialize_eq_nil_iff, goesOn_perm hperm ((hperm.filterMap Task.mask).nodup_iff.mpr hmasks),
      pendingAhead_perm hperm] at hmade
    exact ⟨fun c hc => hreadable c (hperm.mem_iff.mpr hc), hmade⟩
  · rintro ⟨hreadable, henough⟩
    obtain ⟨children, hchildren⟩ := (exists_childrenOf_eq_ok_iff h.sound parent.id).mpr hreadable
    rw [hchildren] at hread
    obtain ⟨hperm, -⟩ := hread.of_ok
    have hmade : materialize parent children now horizon (fun i => draw (s.issued + i)) = [] := by
      rw [materialize_eq_nil_iff,
        goesOn_perm hperm ((hperm.filterMap Task.mask).nodup_iff.mpr hmasks),
        pendingAhead_perm hperm]
      exact henough
    have hfits := fits_of_nil (h.counted hperm) hmade
    refine generateFor_eq_ok_iff.mpr ⟨children, hchildren, hfits, s, ?_, ?_⟩
    · rw [hmade, insertDrawn_nil]
    · rw [hmade, List.length_nil]

lemma le_of_foldlM_generateNext {parents : List Task} {x y : Nat × Store}
    (h : parents.foldlM (generateNext draw now horizon) x = .ok y) : x.1 ≤ y.1 := by
  induction parents generalizing x with
  | nil => exact Nat.le_of_eq (congrArg Prod.fst (Except.ok.inj h))
  | cons p parents ih =>
    rw [List.foldlM_cons] at h
    obtain ⟨next, hnext, hrest⟩ := bind_eq_ok.mp h
    obtain ⟨made, -, rfl⟩ := map_eq_ok.mp hnext
    exact Nat.le_trans (Nat.le_add_right _ _) (ih hrest)

/-- The walk along parents generates nothing exactly when it does nothing for each. -/
lemma foldlM_generateNext_eq_nothing_iff {parents : List Task} (h : s.WellFormed)
    (hparents : ∀ p ∈ parents, DefinesSeries s.tasks p.id) :
    (∃ s', parents.foldlM (generateNext draw now horizon) (0, s) = .ok (0, s')) ↔
      ∀ p ∈ parents, s.generateFor draw now horizon p = .ok (0, s) := by
  induction parents with
  | nil => exact ⟨fun _ p hp => absurd hp List.not_mem_nil, fun _ => ⟨s, rfl⟩⟩
  | cons p parents ih =>
    rw [List.forall_mem_cons] at hparents
    rw [List.forall_mem_cons, ← ih hparents.2, List.foldlM_cons]
    constructor
    · rintro ⟨s', hok⟩
      obtain ⟨next, hnext, hrest⟩ := bind_eq_ok.mp hok
      obtain ⟨x, hx, rfl⟩ := map_eq_ok.mp hnext
      obtain ⟨made, -, rfl⟩ := generateFor_eq_ok h hparents.1 hx
      -- what is counted for this parent is counted in the end
      have hcount : 0 + made.length ≤ 0 := le_of_foldlM_generateNext hrest
      have hnone : made = [] := List.length_eq_zero_iff.mp (by omega)
      rw [hnone, added_nil] at hx hrest
      exact ⟨hx, s', hrest⟩
    · rintro ⟨hx, s', hrest⟩
      refine ⟨s', bind_eq_ok.mpr ⟨(0, s), ?_, hrest⟩⟩
      exact map_eq_ok.mpr ⟨_, hx, rfl⟩

/-! ## What the walk adds -/

/-- The walk along some parents has added new tasks to a store: for each parent what a pass makes from
the occurrences that it had before. -/
structure Grown (now : Instant) (horizon : Nat) (s : Store) (parents new : List Task) : Prop where
  wellFormed : (s.added new).WellFormed
  parent : ∀ t ∈ new, ∃ p ∈ parents, t.parent = some p.id
  made : ∀ p ∈ parents, ∃ children draw, children.Perm (s.children p.id) ∧
    childrenIn new p.id = materialize p children now horizon draw

lemma grown_nil (h : s.WellFormed) : Grown now horizon s [] [] where
  wellFormed := by
    rw [added_nil]
    exact h
  parent := fun _ ht => absurd ht List.not_mem_nil
  made := fun _ hp => absurd hp List.not_mem_nil

/-- Everything that the walk has added is an occurrence of one of the parents. -/
lemma Grown.exists_occurrence {parents new : List Task} (h : Grown now horizon s parents new)
    {t : Task} (ht : t ∈ new) :
    ∃ p ∈ parents, ∃ id due mask, t = occurrence p id due mask now := by
  obtain ⟨p, hp, hparent⟩ := h.parent t ht
  obtain ⟨children, draw, -, hmade⟩ := h.made p hp
  have hmem : t ∈ childrenIn new p.id := mem_childrenIn.mpr ⟨ht, hparent⟩
  rw [hmade] at hmem
  exact ⟨p, hp, exists_occurrence_of_mem_materialize hmem⟩

/-- Nothing is generated for a task that was not visited. -/
lemma Grown.childrenIn_of_ne {parents new : List Task} (h : Grown now horizon s parents new)
    {id : TaskId} (hid : id ∉ parents.map Task.id) : childrenIn new id = [] := by
  refine childrenIn_eq_nil fun t ht hparent => ?_
  obtain ⟨p, hp, hpid⟩ := h.parent t ht
  rw [hparent] at hpid
  exact hid (List.mem_map.mpr ⟨p, hp, (Option.some.inj hpid).symm⟩)

/-- One more parent that was not among the others. -/
lemma Grown.next {parents new made : List Task} (h : Grown now horizon s parents new)
    (hid : parent.id ∉ parents.map Task.id)
    (hmade : Generated draw now horizon parent (s.added new) made) :
    Grown now horizon s (parents ++ [parent]) (new ++ made) where
  wellFormed := by
    rw [← added_added]
    exact h.wellFormed.added hmade.structured
  parent := by
    intro t ht
    rcases List.mem_append.mp ht with hold | hnew
    · obtain ⟨p, hp, hpid⟩ := h.parent t hold
      exact ⟨p, List.mem_append_left _ hp, hpid⟩
    · exact ⟨parent, by simp, hmade.parent_eq hnew⟩
  made := by
    intro p hp
    rw [childrenIn_append]
    rcases List.mem_append.mp hp with hold | hnew
    · -- the occurrences made for this parent are none of a parent before it
      have hne : p.id ≠ parent.id := fun heq => hid (heq ▸ List.mem_map_of_mem hold)
      rw [hmade.childrenIn_of_ne hne, List.append_nil]
      exact h.made p hold
    · rw [List.mem_singleton.mp hnew, h.childrenIn_of_ne hid, List.nil_append]
      obtain ⟨children, hperm, hmaterialize⟩ := hmade.made_eq
      rw [children_added, h.childrenIn_of_ne hid, List.map_nil, List.append_nil] at hperm
      have hall : childrenIn made parent.id = made :=
        childrenIn_eq_self fun t ht => hmade.parent_eq ht
      exact ⟨children, _, hperm, hall.trans hmaterialize⟩

/-- The walk along parents with different ids adds what is made for each of them. -/
lemma foldlM_generateNext_eq_ok {done rest new : List Task} {x : Nat × Store}
    (h : Grown now horizon s done new) (hids : ((done ++ rest).map Task.id).Nodup)
    (hrest : ∀ p ∈ rest, DefinesSeries s.tasks p.id)
    (hok : rest.foldlM (generateNext draw now horizon) (new.length, s.added new) = .ok x) :
    ∃ all, Grown now horizon s (done ++ rest) all ∧ x = (all.length, s.added all) := by
  induction rest generalizing done new with
  | nil =>
    rw [List.append_nil]
    exact ⟨new, h, (Except.ok.inj hok).symm⟩
  | cons p rest ih =>
    rw [List.forall_mem_cons] at hrest
    rw [List.foldlM_cons] at hok
    obtain ⟨next, hnext, hok⟩ := bind_eq_ok.mp hok
    obtain ⟨y, hy, rfl⟩ := map_eq_ok.mp hnext
    obtain ⟨made, hmade, rfl⟩ := generateFor_eq_ok h.wellFormed (definesSeries_added hrest.1) hy
    have hid : p.id ∉ done.map Task.id := by
      rw [List.map_append, List.map_cons, List.nodup_middle, List.nodup_cons] at hids
      exact fun hmem => hids.1 (List.mem_append_left _ hmem)
    have hgrown := h.next hid hmade
    rw [added_added, ← List.length_append] at hok
    rw [List.append_cons] at hids ⊢
    exact ih hgrown hids hrest.2 hok

/-- Visiting the parents whose series go on, in whatever order, adds what is made for each of them. -/
lemma grown_of_foldlM {parents : List Task} {x : Nat × Store} (h : s.WellFormed)
    (hparents : parents.Perm (s.tasks.filter Task.isActiveParent))
    (hok : parents.foldlM (generateNext draw now horizon) (0, s) = .ok x) :
    ∃ new, Grown now horizon s parents new ∧ x = (new.length, s.added new) := by
  have hids : (parents.map Task.id).Nodup := by
    rw [(hparents.map Task.id).nodup_iff]
    exact h.structured.ids.sublist (List.filter_sublist.map Task.id)
  have hdefines : ∀ p ∈ parents, DefinesSeries s.tasks p.id := fun p hp =>
    definesSeries_of_isActiveParent (hparents.mem_iff.mp hp)
  rw [← added_nil s] at hok
  exact foldlM_generateNext_eq_ok (grown_nil h) hids hdefines hok

/-- Generating, the parents visited in the order that `order` puts them in. -/
def generateAlong (order : List Task → List Task) (draw : Nat → TaskId)
    (settings : RecurrenceSettings) (now : Instant) (s : Store) : Except Fault (Nat × Store) :=
  if settings.enabled then
    s.activeParents.mapError Fault.store >>= fun parents =>
      (order parents).foldlM (generateNext draw now settings.horizon) (0, s)
  else .ok (0, s)

/-- The parents are visited as they are read. -/
lemma generate_eq_generateAlong (settings : RecurrenceSettings) :
    s.generate draw settings now = s.generateAlong id draw settings now := rfl

/-- Generating that succeeds has added what is made for every parent whose series goes on. -/
lemma generateAlong_eq_ok {order : List Task → List Task} {settings : RecurrenceSettings}
    {x : Nat × Store} (h : s.WellFormed) (horder : ∀ parents, (order parents).Perm parents)
    (hok : s.generateAlong order draw settings now = .ok x) :
    ∃ parents new, Grown now settings.horizon s parents new ∧ x = (new.length, s.added new) ∧
      parents.Perm (if settings.enabled then s.tasks.filter Task.isActiveParent else []) := by
  unfold generateAlong at hok
  split_ifs at hok ⊢
  · obtain ⟨parents, hparents, hok⟩ := bind_eq_ok.mp hok
    have hperm := (horder parents).trans (mapError_eq_ok.mp hparents ▸ h.ends_activeParents).of_ok
    obtain ⟨new, hgrown, hx⟩ := grown_of_foldlM h hperm hok
    exact ⟨order parents, new, hgrown, hx, hperm⟩
  · refine ⟨[], [], grown_nil h, ?_, List.Perm.nil⟩
    rw [added_nil]
    exact (Except.ok.inj hok).symm

/-- Generation that succeeds adds the occurrences that the active parents are missing. -/
lemma generate_eq_ok {settings : RecurrenceSettings} {x : Nat × Store} (h : s.WellFormed)
    (hok : s.generate draw settings now = .ok x) :
    ∃ parents new, Grown now settings.horizon s parents new ∧ x = (new.length, s.added new) ∧
      parents.Perm (if settings.enabled then s.tasks.filter Task.isActiveParent else []) := by
  rw [generate_eq_generateAlong] at hok
  exact generateAlong_eq_ok h (fun parents => List.Perm.refl parents) hok

/-! ## Stores that are caught up -/

/-- Every series that goes on has as many occurrences ahead as the horizon asks for, or has ended. -/
def CaughtUp (s : Store) (horizon : Nat) (now : Instant) : Prop :=
  ∀ p ∈ s.tasks, p.isActiveParent = true → GoesOn p (s.children p.id) →
    horizon ≤ pendingAhead (s.children p.id) now

/-- Generating nothing leaves the store alone. -/
lemma eq_of_generate_eq_nothing {settings : RecurrenceSettings} {s' : Store} (h : s.WellFormed)
    (hok : s.generate draw settings now = .ok (0, s')) : s' = s := by
  obtain ⟨-, new, -, hx, -⟩ := generate_eq_ok h hok
  obtain ⟨hlen, rfl⟩ := Prod.mk.inj hx
  rw [List.length_eq_zero_iff.mp hlen.symm, added_nil]

/-- Generating does nothing exactly in a store that is caught up, what it looks at being readable. -/
lemma generate_eq_nothing_iff {settings : RecurrenceSettings} (h : s.WellFormed) :
    s.generate draw settings now = .ok (0, s) ↔ (settings.enabled = true →
      (∀ p ∈ s.tasks, p.isActiveParent = true →
        p.Readable ∧ ∀ c ∈ s.children p.id, c.Readable) ∧ s.CaughtUp settings.horizon now) := by
  -- that the store stays as it is follows from the count alone
  have hsame : s.generate draw settings now = .ok (0, s) ↔
      ∃ s', s.generate draw settings now = .ok (0, s') := by
    refine ⟨fun hok => ⟨s, hok⟩, ?_⟩
    rintro ⟨s', hok⟩
    have heq := eq_of_generate_eq_nothing h hok
    rwa [heq] at hok
  rw [hsame, generate_eq]
  split_ifs with henabled
  · have hread := exists_activeParents_eq_ok_iff h.sound
    constructor
    · rintro ⟨s', hok⟩ -
      obtain ⟨parents, hparents, hok⟩ := bind_eq_ok.mp hok
      rw [mapError_eq_ok] at hparents
      have hperm := (hparents ▸ h.ends_activeParents).of_ok
      have hmem : ∀ p ∈ s.tasks, p.isActiveParent = true → p ∈ parents := fun p hp hactive =>
        hperm.mem_iff.mpr (List.mem_filter.mpr ⟨hp, hactive⟩)
      have hall := (foldlM_generateNext_eq_nothing_iff h fun p hp =>
        definesSeries_of_isActiveParent (hperm.mem_iff.mp hp)).mp ⟨s', hok⟩
      have hnothing := fun p hp hactive => (generateFor_eq_nothing_iff h).mp
        (hall p (hmem p hp hactive))
      exact ⟨fun p hp hactive => ⟨hread.mp ⟨parents, hparents⟩ p hp hactive,
        (hnothing p hp hactive).1⟩, fun p hp hactive => (hnothing p hp hactive).2⟩
    · intro hcaught
      obtain ⟨hreadable, hcaught⟩ := hcaught henabled
      obtain ⟨parents, hparents⟩ := hread.mpr fun p hp hactive => (hreadable p hp hactive).1
      have hperm := (hparents ▸ h.ends_activeParents).of_ok
      have hall : ∀ p ∈ parents, s.generateFor draw now settings.horizon p = .ok (0, s) := by
        intro p hp
        obtain ⟨hmem, hactive⟩ := List.mem_filter.mp (hperm.mem_iff.mp hp)
        exact (generateFor_eq_nothing_iff h).mpr
          ⟨(hreadable p hmem hactive).2, hcaught p hmem hactive⟩
      obtain ⟨s', hok⟩ := (foldlM_generateNext_eq_nothing_iff h fun p hp =>
        definesSeries_of_isActiveParent (hperm.mem_iff.mp hp)).mpr hall
      exact ⟨s', bind_eq_ok.mpr ⟨parents, mapError_eq_ok.mpr hparents, hok⟩⟩
  · exact ⟨fun _ hfalse => absurd hfalse henabled, fun _ => ⟨s, rfl⟩⟩

/-- Due dates in a sound store are in whole milliseconds, the last leap second apart. -/
lemma Sound.isWhole_due (h : s.Sound) {t : Task} (ht : t ∈ s.tasks) {due : Instant}
    (hdue : t.due = some due) (hregular : due ≤ .lastRegular) : due.IsWhole := by
  have hstored : t.due.map Instant.stored = t.due := congrArg Task.due (h.stored_eq ht)
  rw [hdue] at hstored
  exact Instant.isWhole_of_stored_eq (Option.some.inj hstored) hregular

section
variable {parents new : List Task} (h : Grown now horizon s parents new) (hs : s.WellFormed)
  (hdue : ∀ t ∈ s.tasks, ∀ due, t.due = some due → due ≤ .lastRegular)
  (hparent : parent ∈ parents) (hstored : parent ∈ s.tasks)
include h hs hdue hparent hstored

/-- What was made for a parent is due in whole milliseconds and within the parent's expiry, so that the
store keeps its date as it is. -/
lemma Grown.due_of_mem {t : Task} (ht : t ∈ childrenIn new parent.id) :
    t.stored.due = t.due ∧ t.expiry = parent.expiry ∧
      ∃ due, t.due = some due ∧ due.IsWhole ∧ withinExpiry parent.expiry due = true := by
  obtain ⟨children, draw, hperm, hmade⟩ := h.made parent hparent
  rw [hmade] at ht
  obtain ⟨hexpiry, due, heq, hwithin, hwhole⟩ := due_of_mem_materialize ht
  have hmem : ∀ u ∈ parent :: children, u ∈ s.tasks := fun u hu => by
    rcases List.mem_cons.mp hu with rfl | hu
    · exact hstored
    · exact (mem_childrenIn.mp (hperm.mem_iff.mp hu)).1
  have hdue_whole := hwhole fun u hu d hd =>
    hs.sound.isWhole_due (hmem u hu) hd (hdue u (hmem u hu) d hd)
  refine ⟨?_, hexpiry, due, heq, hdue_whole, hwithin⟩
  show t.due.map Instant.stored = t.due
  rw [heq, Option.map_some, hdue_whole.stored_eq]

/-- After the walk, every series of which fewer occurrences were made than one pass may make has enough
of them ahead, or has ended. -/
lemma Grown.enough (hfew : (childrenIn new parent.id).length < mostPerPass) :
    GoesOn parent ((s.added new).children parent.id) →
      horizon ≤ pendingAhead ((s.added new).children parent.id) now := by
  obtain ⟨children, draw, hperm, hmade⟩ := h.made parent hparent
  -- a second pass over what the first one read and made would make nothing
  have hagain : materialize parent (children ++ childrenIn new parent.id) now horizon draw = [] := by
    rw [hmade] at hfew ⊢
    exact materialize_again hfew draw
  -- the store holds these occurrences with the same places and due dates, in its own order
  have hlist : (s.added new).children parent.id =
      (s.children parent.id ++ childrenIn new parent.id).map Task.stored := by
    rw [children_added, List.map_append, hs.sound.map_stored_children]
  have hkept : ∀ t ∈ s.children parent.id ++ childrenIn new parent.id, t.stored.due = t.due := by
    intro t ht
    rcases List.mem_append.mp ht with hold | hnew
    · rw [hs.sound.stored_eq (mem_childrenIn.mp hold).1]
    · exact (h.due_of_mem hs hdue hparent hstored hnew).1
  have hahead : ∀ t ∈ s.children parent.id ++ childrenIn new parent.id,
      isAhead now t.stored = isAhead now t := by
    intro t ht
    unfold isAhead
    rw [hkept t ht]
    rfl
  have hboth : (children ++ childrenIn new parent.id).Perm
      (s.children parent.id ++ childrenIn new parent.id) := hperm.append_right _
  have hmasks : ((children ++ childrenIn new parent.id).filterMap Task.mask).Nodup := by
    have hnodup := h.wellFormed.nodup_masks parent.id
    rw [hlist, List.filterMap_map] at hnodup
    exact (hboth.filterMap Task.mask).nodup_iff.mpr hnodup
  rw [hlist, goesOn_map (fun t => (keeps_stored t).mask) hkept, pendingAhead_map hahead,
    ← goesOn_perm hboth hmasks, ← pendingAhead_perm hboth]
  exact materialize_eq_nil_iff.mp hagain

end

end Store

end TaskSeries
