import TaskSeries.Proofs.Tracker.DueDates
import TaskSeries.Proofs.Tracker.Success

/-!
# Series apart

What a pass does to a series is read off from the parent and its occurrences alone: the occurrences
that are missing (`Store.missing`) and the tasks that have expired. Other tasks, other series and the
order in which the parents are visited have no part in it but for the ids that are drawn. They decide
only whether the pass succeeds at all, so that it does the same to a series in two stores exactly when
it succeeds in both or in none, or has nothing to do for the series (`Store.apart_of_reachable`).
-/

namespace TaskSeries

open TaskSeries.Calendar TaskSeries.Series

/-! ## Tasks up to their ids -/

/-- The task under another id. -/
def Task.underId (id : TaskId) (t : Task) : Task := { t with id := id }

namespace Series

/-- Two lists hold the same tasks in the same order, up to their ids. -/
def Alike (l l' : List Task) : Prop :=
  ∀ id, l.map (Task.underId id) = l'.map (Task.underId id)

variable {l l' l'' : List Task}

lemma Alike.symm (h : Alike l l') : Alike l' l := fun id => (h id).symm

lemma Alike.trans (h : Alike l l') (h' : Alike l' l'') : Alike l l'' :=
  fun id => (h id).trans (h' id)

lemma alike_nil_iff : Alike l [] ↔ l = [] := by
  constructor
  · intro h
    cases l with
    | nil => rfl
    | cons t l => exact absurd (h t.id) (List.cons_ne_nil _ _)
  · rintro rfl id
    rfl

lemma Alike.eq_nil_iff (h : Alike l l') : l = [] ↔ l' = [] := by
  rw [← alike_nil_iff, ← alike_nil_iff]
  exact ⟨h.symm.trans, h.trans⟩

/-- A change that does not look at ids changes tasks that are alike into such tasks. -/
lemma Alike.map {f : Task → Task} (h : Alike l l') (hf : ∀ id t, (f t).underId id = f (t.underId id)) :
    Alike (l.map f) (l'.map f) := by
  intro id
  have hcomm : Task.underId id ∘ f = f ∘ Task.underId id := funext (hf id)
  rw [List.map_map, List.map_map, hcomm, ← List.map_map, ← List.map_map, h id]

/-- Occurrences that are made with other ids are alike. -/
lemma alike_occurrences (parent : Task) (now : Instant) (draw draw' : Nat → TaskId) (start : Nat)
    (dues : List Instant) :
    Alike (occurrences parent now draw start dues) (occurrences parent now draw' start dues) := by
  intro id
  unfold occurrences
  rw [List.map_map, List.map_map]
  rfl

/-- What is made for a parent depends on the ids that are drawn in nothing but the ids, and not on the
order of the occurrences that it is computed from. -/
lemma alike_materialize {parent : Task} (hperm : l.Perm l') (hl : (l.filterMap Task.mask).Nodup)
    (now : Instant) (horizon : Nat) (draw draw' : Nat → TaskId) :
    Alike (materialize parent l now horizon draw) (materialize parent l' now horizon draw') := by
  rw [materialize_perm hperm hl]
  rcases dated_or_materialize_eq_nil parent with ⟨p, first, hrecur, hdue⟩ | hnil
  · rw [materialize_of_some hrecur hdue, materialize_of_some hrecur hdue]
    exact alike_occurrences _ _ _ _ _ _
  · rw [hnil, hnil]
    exact fun _ => rfl

end Series

/-- Whether a task expires does not depend on its id. -/
lemma Task.underId_afterExpiry {settings : RecurrenceSettings} {now : Instant} (id : TaskId)
    (t : Task) :
    (t.afterExpiry settings now).underId id = (t.underId id).afterExpiry settings now := by
  have hsame : (t.underId id).expires settings now = t.expires settings now := rfl
  unfold Task.afterExpiry
  rw [hsame]
  split_ifs <;> rfl

/-- The deletions leave a task alone exactly when it has not expired. -/
lemma Task.afterExpiry_eq_self_iff {settings : RecurrenceSettings} {now : Instant} {t : Task} :
    t.afterExpiry settings now = t ↔ t.expires settings now = false := by
  constructor
  · intro hsame
    by_contra hexpires
    rw [Bool.not_eq_false] at hexpires
    have hpending : t.status = .pending := by
      unfold Task.expires Store.isPast at hexpires
      simp only [Bool.and_eq_true, beq_iff_eq] at hexpires
      exact hexpires.2.1
    have hdeleted : (t.afterExpiry settings now).status = .deleted := by
      unfold Task.afterExpiry
      rw [if_pos hexpires]
      rfl
    rw [hsame, hpending] at hdeleted
    exact absurd hdeleted nofun
  · intro hexpires
    unfold Task.afterExpiry
    rw [hexpires]
    rfl

namespace Store

variable {s s' s₁ s₂ s₁' s₂' : Store} {p : Task} {draw draw₁ draw₂ : Nat → TaskId} {now : Instant}
  {settings : RecurrenceSettings} {order order₁ order₂ : List Task → List Task}

/-! ## One series in two stores -/

/-- Both stores hold a task, and the same occurrences of it. -/
structure AgreeOn (p : Task) (s₁ s₂ : Store) : Prop where
  left : p ∈ s₁.tasks
  right : p ∈ s₂.tasks
  children : ∀ t, t.parent = some p.id → (t ∈ s₁.tasks ↔ t ∈ s₂.tasks)

/-- The occurrences of a parent that the second store holds and the first one does not. -/
def inserted (s s' : Store) (parent : TaskId) : List Task :=
  (s'.children parent).filter fun t => t.id ∉ s.tasks.map Task.id

/-- From two stores that agree on a series, the same has become of it: the same occurrences were
inserted up to their ids, and the parent and the occurrences that were there are the same tasks. -/
structure SamePass (p : Task) (s₁ s₂ s₁' s₂' : Store) : Prop where
  inserted : Alike (s₁.inserted s₁' p.id) (s₂.inserted s₂' p.id)
  kept : ∀ u ∈ p :: s₁.children p.id, ∀ t, t.id = u.id → (t ∈ s₁'.tasks ↔ t ∈ s₂'.tasks)

lemma AgreeOn.symm (h : AgreeOn p s₁ s₂) : AgreeOn p s₂ s₁ where
  left := h.right
  right := h.left
  children t ht := (h.children t ht).symm

lemma SamePass.symm (h : SamePass p s₁ s₂ s₁' s₂')
    (hchildren : s₁.children p.id = s₂.children p.id) : SamePass p s₂ s₁ s₂' s₁' where
  inserted := h.inserted.symm
  kept u hu t hid := (h.kept u (hchildren ▸ hu) t hid).symm

/-- Stores that agree on a series hold its occurrences in the same order. -/
lemma AgreeOn.children_eq (h : AgreeOn p s₁ s₂) (h₁ : s₁.WellFormed) (h₂ : s₂.WellFormed) :
    s₁.children p.id = s₂.children p.id := by
  have hmem : ∀ t, t ∈ s₁.children p.id ↔ t ∈ s₂.children p.id := by
    intro t
    unfold Store.children
    rw [mem_childrenIn, mem_childrenIn]
    exact and_congr_left fun hparent => h.children t hparent
  have hnodup : ∀ {s : Store}, s.WellFormed → (s.children p.id).Nodup := fun hs =>
    (hs.structured.ids.of_map Task.id).filter _
  have hlength : (s₁.children p.id).length = (s₂.children p.id).length :=
    ((List.perm_ext_iff_of_nodup (hnodup h₁) (hnodup h₂)).mpr hmem).length_eq
  have hmasks : (s₁.children p.id).map Task.mask = (s₂.children p.id).map Task.mask := by
    have hdense₁ := h₁.structured.dense p.id
    have hdense₂ := h₂.structured.dense p.id
    unfold Store.children at hlength ⊢
    rw [hdense₁, hdense₂, hlength]
  -- the place of an occurrence says which one it is
  refine List.ext_getElem hlength fun i hi hi' => ?_
  refine h₂.structured.eq_of_mask ((hmem _).mp (List.getElem_mem hi)) (List.getElem_mem hi') ?_
  have hget := List.getElem_of_eq hmasks (by simpa using hi)
  simpa using hget

/-! ## What a pass leaves of a series -/

/-- What has become of a series: its tasks were changed in place, and occurrences were inserted. -/
structure Leaves (p : Task) (s s' : Store) (made : List Task) (f : Task → Task) : Prop where
  inserted : s.inserted s' p.id = made
  kept : ∀ u ∈ p :: s.children p.id, ∀ t, t.id = u.id → (t ∈ s'.tasks ↔ t = f u)

lemma mem_of_mem_series (hp : p ∈ s.tasks) : ∀ u ∈ p :: s.children p.id, u ∈ s.tasks :=
  List.forall_mem_cons.mpr ⟨hp, fun _ hu => (mem_childrenIn.mp hu).1⟩

/-- Nothing has become of a series in a store that was left alone. -/
lemma leaves_self (h : s.WellFormed) (hp : p ∈ s.tasks) : Leaves p s s [] id where
  inserted := by
    unfold inserted
    rw [List.filter_eq_nil_iff]
    intro t ht
    simpa using ⟨t, (mem_childrenIn.mp ht).1, rfl⟩
  kept u hu t hid := by
    have hstored := mem_of_mem_series hp u hu
    refine ⟨fun ht => h.eq_of_id ht hstored hid, ?_⟩
    rintro rfl
    exact hstored

/-- From stores that agree on a series, the same has become of it exactly when the same was inserted up
to the ids and the same was done to its tasks. -/
lemma Leaves.samePass_iff {made₁ made₂ : List Task} {f₁ f₂ : Task → Task}
    (hl₁ : Leaves p s₁ s₁' made₁ f₁) (hl₂ : Leaves p s₂ s₂' made₂ f₂)
    (hchildren : s₁.children p.id = s₂.children p.id) (hf₁ : ∀ t, (f₁ t).id = t.id) :
    SamePass p s₁ s₂ s₁' s₂' ↔ Alike made₁ made₂ ∧ ∀ u ∈ p :: s₁.children p.id, f₁ u = f₂ u := by
  constructor
  · intro hsame
    refine ⟨hl₁.inserted ▸ hl₂.inserted ▸ hsame.inserted, fun u hu => ?_⟩
    have hmem := (hsame.kept u hu (f₁ u) (hf₁ u)).mp ((hl₁.kept u hu _ (hf₁ u)).mpr rfl)
    rw [hchildren] at hu
    exact (hl₂.kept u hu _ (hf₁ u)).mp hmem
  · rintro ⟨halike, hf⟩
    refine ⟨hl₁.inserted ▸ hl₂.inserted ▸ halike, fun u hu t hid => ?_⟩
    rw [hl₁.kept u hu t hid, hf u hu]
    rw [hchildren] at hu
    exact (hl₂.kept u hu t hid).symm

/-- What a pass makes for a task: the occurrences that are missing, if it is a parent whose series goes
on. Nothing but the task and its occurrences is looked at. -/
def missing (draw : Nat → TaskId) (settings : RecurrenceSettings) (now : Instant) (s : Store)
    (p : Task) : List Task :=
  if settings.enabled = true ∧ p.isActiveParent = true then
    materialize p (s.children p.id) now settings.horizon draw
  else []

/-- A pass has nothing to do for a series: none of its tasks has expired, and it has enough occurrences
ahead or has ended. -/
def SeriesIdle (settings : RecurrenceSettings) (now : Instant) (s : Store) (p : Task) : Prop :=
  (∀ t ∈ p :: s.children p.id, t.expires settings now = false) ∧
    (settings.enabled = true → p.isActiveParent = true → GoesOn p (s.children p.id) →
      settings.horizon ≤ pendingAhead (s.children p.id) now)

/-- Nothing is missing of a series exactly when it is not looked at, has ended, or has enough ahead. -/
lemma missing_eq_nil_iff : s.missing draw settings now p = [] ↔
    (settings.enabled = true → p.isActiveParent = true → GoesOn p (s.children p.id) →
      settings.horizon ≤ pendingAhead (s.children p.id) now) := by
  unfold missing
  split_ifs with hvisited
  · rw [materialize_eq_nil_iff]
    exact ⟨fun h _ _ => h, fun h => h hvisited.1 hvisited.2⟩
  · exact ⟨fun _ henabled hactive => absurd ⟨henabled, hactive⟩ hvisited, fun _ => rfl⟩

/-- What was added to a series is what it was missing, up to the ids. -/
lemma Grown.alike_missing {parents new : List Task}
    (h : Grown now settings.horizon s parents new) (hs : s.WellFormed) (hp : p ∈ s.tasks)
    (hparents : parents.Perm (if settings.enabled then s.tasks.filter Task.isActiveParent else [])) :
    Alike (childrenIn new p.id) (s.missing draw settings now p) := by
  unfold missing
  split_ifs with hvisited
  · have hparent : p ∈ parents := (mem_parents_iff hparents).mpr ⟨hvisited.1, hp, hvisited.2⟩
    obtain ⟨children, draw', hperm, hmade⟩ := h.made p hparent
    rw [hmade]
    exact alike_materialize hperm ((hperm.filterMap Task.mask).nodup_iff.mpr (hs.nodup_masks p.id))
      now settings.horizon draw' draw
  · -- no parent that was visited has this id
    refine alike_nil_iff.mpr (h.childrenIn_of_ne fun hid => hvisited ?_)
    obtain ⟨q, hq, hqid⟩ := List.mem_map.mp hid
    rw [hs.eq_of_id (mem_of_mem_parents hparents hq) hp hqid] at hq
    obtain ⟨henabled, -, hactive⟩ := (mem_parents_iff hparents).mp hq
    exact ⟨henabled, hactive⟩

/-- A pass that succeeds has inserted into a series what it was missing, up to the ids, and deleted what
had expired. -/
lemma exists_leaves_of_triggerAlong {r : TriggerReport} (h : s.WellFormed) (hp : p ∈ s.tasks)
    (horder : ∀ parents, (order parents).Perm parents)
    (hok : s.triggerAlong order draw settings now = .ok (r, s')) (draw' : Nat → TaskId) :
    ∃ made, Alike made (s.missing draw' settings now p) ∧
      Leaves p s s' ((made.map Task.stored).map (Task.afterExpiry settings now))
        (Task.afterExpiry settings now) := by
  obtain ⟨s₁, hgenerate, hexpire, -⟩ := triggerAlong_eq_ok_iff.mp hok
  obtain ⟨parents, new, hgrown, hx, hparents⟩ := generateAlong_eq_ok h horder hgenerate
  obtain ⟨-, rfl⟩ := Prod.mk.inj hx
  obtain ⟨hs', -, htasks⟩ := expireUnder_eq_ok hgrown.wellFormed hexpire
  refine ⟨childrenIn new p.id, hgrown.alike_missing h hp hparents, ?_, ?_⟩
  · have hids := hgrown.wellFormed.structured.ids
    rw [tasks_added, List.map_append] at hids
    have hold : ((s.children p.id).map (Task.afterExpiry settings now)).filter
        (fun t => t.id ∉ s.tasks.map Task.id) = [] := by
      rw [List.filter_eq_nil_iff, List.forall_mem_map]
      intro t ht
      simpa [keeps_afterExpiry.id] using ⟨t, (mem_childrenIn.mp ht).1, rfl⟩
    have hnew : (((childrenIn new p.id).map Task.stored).map (Task.afterExpiry settings now)).filter
        (fun t => t.id ∉ s.tasks.map Task.id) =
          ((childrenIn new p.id).map Task.stored).map (Task.afterExpiry settings now) := by
      rw [List.filter_eq_self, List.forall_mem_map]
      intro t ht
      obtain ⟨u, hu, rfl⟩ := List.mem_map.mp ht
      have hstored : u.stored.id ∈ (new.map Task.stored).map Task.id :=
        List.mem_map_of_mem (List.mem_map_of_mem (mem_childrenIn.mp hu).1)
      rw [decide_eq_true_eq, keeps_afterExpiry.id]
      exact fun hmem => List.disjoint_of_nodup_append hids hmem hstored
    unfold inserted
    rw [children_afterExpiry htasks, children_added, List.map_append, List.filter_append, hold, hnew,
      List.nil_append]
  · intro u hu t hid
    have hmem : u.afterExpiry settings now ∈ s'.tasks := by
      rw [htasks]
      exact List.mem_map_of_mem (mem_tasks_added (mem_of_mem_series hp u hu))
    refine ⟨fun ht => hs'.eq_of_id ht hmem (hid.trans keeps_afterExpiry.id.symm), ?_⟩
    rintro rfl
    exact hmem

/-! ## Passes over two stores -/

/-- The store after a pass; a pass that fails leaves it alone. -/
def afterPass (order : List Task → List Task) (draw : Nat → TaskId) (settings : RecurrenceSettings)
    (now : Instant) (s : Store) : Store :=
  match s.triggerAlong order draw settings now with
  | .ok (_, s') => s'
  | .error _ => s

/-- The command for a pass leaves this store behind. -/
lemma store_run_gc (t : Tracker) (draw : Nat → TaskId) :
    (t.run draw .gc).2.store = t.store.afterPass id draw t.config.recurrence t.now := by
  unfold Tracker.run Tracker.gc Tracker.transact afterPass
  rw [← trigger_eq_triggerAlong]
  cases t.store.trigger draw t.config.recurrence t.now <;> rfl

/-- A pass with these ids may write to the store, and the ids are new for it. -/
structure Ready (draw : Nat → TaskId) (s : Store) : Prop where
  wellFormed : s.WellFormed
  writable : s.readOnly = false
  fresh : s.Fresh draw (s.tasks.length * mostPerPass)

section
variable (hs : s.Ready draw) (horder : ∀ parents, (order parents).Perm parents)
include hs horder

/-- A pass that can be made adds what the series is missing and deletes what has expired of it. -/
lemma Ready.exists_leaves (hpass : s.Passable settings now) (hp : p ∈ s.tasks)
    (draw' : Nat → TaskId) :
    ∃ made, Alike made (s.missing draw' settings now p) ∧
      Leaves p s (s.afterPass order draw settings now)
        ((made.map Task.stored).map (Task.afterExpiry settings now))
        (Task.afterExpiry settings now) := by
  obtain ⟨⟨r, s'⟩, hok⟩ :=
    (exists_triggerAlong_eq_ok_iff hs.wellFormed hs.writable horder hs.fresh).mpr hpass
  unfold afterPass
  rw [hok]
  exact exists_leaves_of_triggerAlong hs.wellFormed hp horder hok draw'

/-- A pass that cannot be made leaves the store alone. -/
lemma Ready.afterPass_eq_self (hpass : ¬ s.Passable settings now) :
    s.afterPass order draw settings now = s := by
  rw [← exists_triggerAlong_eq_ok_iff hs.wellFormed hs.writable horder hs.fresh] at hpass
  unfold afterPass
  cases hok : s.triggerAlong order draw settings now with
  | ok x => exact absurd ⟨x, hok⟩ hpass
  | error f => rfl

end

section
variable (h₁ : s₁.Ready draw₁) (h₂ : s₂.Ready draw₂)
  (horder₁ : ∀ parents, (order₁ parents).Perm parents)
  (horder₂ : ∀ parents, (order₂ parents).Perm parents) (hagree : AgreeOn p s₁ s₂)
include h₁ h₂ horder₁ hagree

/-- Passes that both succeed do the same to a series that the stores agree on. -/
lemma samePass_of_passable (horder₂ : ∀ parents, (order₂ parents).Perm parents)
    (hpass₁ : s₁.Passable settings now) (hpass₂ : s₂.Passable settings now) :
    SamePass p s₁ s₂ (s₁.afterPass order₁ draw₁ settings now)
      (s₂.afterPass order₂ draw₂ settings now) := by
  have hchildren := hagree.children_eq h₁.wellFormed h₂.wellFormed
  obtain ⟨made₁, halike₁, hl₁⟩ := h₁.exists_leaves horder₁ hpass₁ hagree.left draw₁
  obtain ⟨made₂, halike₂, hl₂⟩ := h₂.exists_leaves horder₂ hpass₂ hagree.right draw₁
  have hsame : s₁.missing draw₁ settings now p = s₂.missing draw₁ settings now p := by
    unfold missing
    rw [hchildren]
  rw [hl₁.samePass_iff hl₂ hchildren fun _ => keeps_afterExpiry.id]
  refine ⟨Alike.map (Alike.map ?_ fun _ _ => rfl) Task.underId_afterExpiry, fun _ _ => rfl⟩
  exact (hsame ▸ halike₁).trans halike₂.symm

/-- A pass that succeeds does the same to a series as one that fails in another store exactly when it
has nothing to do for the series. -/
lemma samePass_of_failed_iff (hpass₁ : s₁.Passable settings now) :
    SamePass p s₁ s₂ (s₁.afterPass order₁ draw₁ settings now) s₂ ↔
      s₁.SeriesIdle settings now p := by
  have hchildren := hagree.children_eq h₁.wellFormed h₂.wellFormed
  obtain ⟨made, halike, hl⟩ := h₁.exists_leaves horder₁ hpass₁ hagree.left draw₁
  rw [hl.samePass_iff (leaves_self h₂.wellFormed hagree.right) hchildren
    fun _ => keeps_afterExpiry.id, alike_nil_iff, List.map_eq_nil_iff, List.map_eq_nil_iff,
    halike.eq_nil_iff, missing_eq_nil_iff, and_comm]
  exact and_congr_left' (forall₂_congr fun _ _ => Task.afterExpiry_eq_self_iff)

include horder₂

/-- Passes over two stores do the same to a series that the stores agree on exactly when both succeed or
both fail, or there is nothing to do for the series. -/
lemma samePass_afterPass_iff :
    SamePass p s₁ s₂ (s₁.afterPass order₁ draw₁ settings now)
        (s₂.afterPass order₂ draw₂ settings now) ↔
      (s₁.Passable settings now ↔ s₂.Passable settings now) ∨ s₁.SeriesIdle settings now p := by
  have hchildren := hagree.children_eq h₁.wellFormed h₂.wellFormed
  by_cases hpass₁ : s₁.Passable settings now <;> by_cases hpass₂ : s₂.Passable settings now
  · have hsame := samePass_of_passable h₁ h₂ horder₁ hagree horder₂ hpass₁ hpass₂
    exact ⟨fun _ => .inl ⟨fun _ => hpass₂, fun _ => hpass₁⟩, fun _ => hsame⟩
  · rw [h₂.afterPass_eq_self horder₂ hpass₂, samePass_of_failed_iff h₁ h₂ horder₁ hagree hpass₁]
    exact ⟨.inr, fun h => h.resolve_left fun hiff => hpass₂ (hiff.mp hpass₁)⟩
  · have hidle : s₂.SeriesIdle settings now p ↔ s₁.SeriesIdle settings now p := by
      unfold SeriesIdle
      rw [hchildren]
    rw [h₁.afterPass_eq_self horder₁ hpass₁, ← hidle,
      ← samePass_of_failed_iff h₂ h₁ horder₂ hagree.symm hpass₂]
    constructor
    · exact fun hsame => .inr (hsame.symm hchildren)
    · exact fun h => (h.resolve_left fun hiff => hpass₁ (hiff.mpr hpass₂)).symm hchildren.symm
  · rw [h₁.afterPass_eq_self horder₁ hpass₁, h₂.afterPass_eq_self horder₂ hpass₂]
    have hsame : SamePass p s₁ s₂ s₁ s₂ :=
      ((leaves_self h₁.wellFormed hagree.left).samePass_iff
        (leaves_self h₂.wellFormed hagree.right) hchildren fun _ => rfl).mpr
          ⟨fun _ => rfl, fun _ _ => rfl⟩
    exact ⟨fun _ => .inl ⟨fun h => absurd h hpass₁, fun h => absurd h hpass₂⟩, fun _ => hsame⟩

end

/-- Two stores that runs of commands lead to agree on a task and its occurrences. Passes over them, in
whatever order the parents are visited, do the same to this series, exactly when both succeed or both
fail, or there is nothing to do for the series. A pass succeeds exactly when what it looks at and what it
writes comes back from the store, and the places of what it makes fit into 32 bits. -/
theorem apart_of_reachable (h₁ : ReachableBy (fun _ => True) s₁)
    (h₂ : ReachableBy (fun _ => True) s₂) (hagree : AgreeOn p s₁ s₂)
    (hfresh₁ : Tracker.HasFreshIds s₁ draw₁) (hfresh₂ : Tracker.HasFreshIds s₂ draw₂)
    (horder₁ : ∀ parents, (order₁ parents).Perm parents)
    (horder₂ : ∀ parents, (order₂ parents).Perm parents) (settings : RecurrenceSettings)
    (now : Instant) :
    (SamePass p s₁ s₂ (s₁.afterPass order₁ draw₁ settings now)
        (s₂.afterPass order₂ draw₂ settings now) ↔
      (s₁.Passable settings now ↔ s₂.Passable settings now) ∨ s₁.SeriesIdle settings now p) ∧
    ((∃ x, s₁.triggerAlong order₁ draw₁ settings now = .ok x) ↔ s₁.Passable settings now) ∧
    ((∃ x, s₂.triggerAlong order₂ draw₂ settings now = .ok x) ↔ s₂.Passable settings now) := by
  have hready₁ : s₁.Ready draw₁ := ⟨h₁.wellFormed, h₁.readOnly_eq, hfresh₁.mono (Nat.le_add_right _ _)⟩
  have hready₂ : s₂.Ready draw₂ := ⟨h₂.wellFormed, h₂.readOnly_eq, hfresh₂.mono (Nat.le_add_right _ _)⟩
  exact ⟨samePass_afterPass_iff hready₁ hready₂ horder₁ horder₂ hagree,
    exists_triggerAlong_eq_ok_iff hready₁.wellFormed hready₁.writable horder₁ hready₁.fresh,
    exists_triggerAlong_eq_ok_iff hready₂.wellFormed hready₂.writable horder₂ hready₂.fresh⟩

end Store

/-! ## The daily task beside others -/

namespace Tracker

lemma reachableBy_dailyStore : ReachableBy (fun _ => True) dailyStore :=
  .of_reachable reachable_dailyStore

lemma hasFreshIds_dailyStore : HasFreshIds dailyStore (TaskId.drawn 1) :=
  Store.fresh_of_map_id_eq rfl (by decide)

/-- A task is entered behind the daily one. -/
lemma reachableBy_behindDaily {description : String} {fields : Fields} {task : Task}
    (hnew : fields.newTask (TaskId.drawn 1 1) description start.now = .ok task) :
    ReachableBy (fun _ => True) (dailyStore.added [task]) := by
  have hadd := @run_add { start with store := dailyStore } _ _ _ _ reachable_dailyStore.wellFormed rfl
    (hasFreshIds_dailyStore.mono (Nat.le_add_left _ _)) hnew
  exact .of_run reachableBy_dailyStore trivial (congrArg Prod.snd hadd)

/-- A task that is no occurrence of the daily one has no part in its series. -/
lemma agreeOn_behindDaily {task : Task} (hparent : task.parent ≠ some daily.id) :
    Store.AgreeOn daily dailyStore (dailyStore.added [task]) where
  left := List.mem_singleton.mpr rfl
  right := Store.mem_tasks_added (List.mem_singleton.mpr rfl)
  children t ht := by
    rw [Store.tasks_added, List.mem_append, List.map_singleton, List.mem_singleton]
    refine ⟨.inl, fun hmem => hmem.resolve_right ?_⟩
    rintro rfl
    exact hparent ht

/-- The series of the daily task has not begun. -/
lemma goesOn_daily : GoesOn daily [] :=
  ⟨.calendar .day 1 false, ⟨1792454400, 0, by decide⟩, ⟨1792454400, 0, by decide⟩, rfl, rfl, rfl, rfl⟩

/-- A second daily task. -/
def otherDaily : Task :=
  { Task.fresh (TaskId.drawn 1 1) "y" start.now with
    due := daily.due
    recur := daily.recur }

/-- The store with both daily tasks. -/
def bothDaily : Store := dailyStore.added [otherDaily]

/-- A pass makes the same occurrence of the daily task whether or not there is another one, even if that
one comes first. -/
theorem apart_bothDaily :
    (ReachableBy (fun _ => True) dailyStore ∧ ReachableBy (fun _ => True) bothDaily ∧
      Store.AgreeOn daily dailyStore bothDaily ∧ HasFreshIds dailyStore (TaskId.drawn 1) ∧
      HasFreshIds bothDaily (TaskId.drawn 1)) ∧
    Store.SamePass daily dailyStore bothDaily
      (dailyStore.afterPass id (TaskId.drawn 1) {} start.now)
      (bothDaily.afterPass List.reverse (TaskId.drawn 1) {} start.now) := by
  have hboth : ReachableBy (fun _ => True) bothDaily :=
    @reachableBy_behindDaily "y" dailyFields _ (by decide +kernel)
  have hagree : Store.AgreeOn daily dailyStore bothDaily := agreeOn_behindDaily nofun
  have hfresh : HasFreshIds bothDaily (TaskId.drawn 1) := Store.fresh_of_map_id_eq rfl (by decide)
  have hpass : dailyStore.Passable {} start.now :=
    Store.passable_of_readable reachable_dailyStore.wellFormed (by decide +kernel) (by decide) (by decide)
  have hpass' : bothDaily.Passable {} start.now :=
    Store.passable_of_readable hboth.wellFormed (by decide +kernel) (by decide) (by decide)
  have hapart := Store.apart_of_reachable reachableBy_dailyStore hboth hagree hasFreshIds_dailyStore
    hfresh (fun _ => List.Perm.refl _) List.reverse_perm {} start.now
  exact ⟨⟨reachableBy_dailyStore, hboth, hagree, hasFreshIds_dailyStore, hfresh⟩,
    hapart.1.mpr (.inl ⟨fun _ => hpass', fun _ => hpass⟩)⟩

/-- A task without a series, due in the leap second at the end of the range. -/
def leapSecondBeside : Task :=
  { Task.fresh (TaskId.drawn 1 1) "y" start.now with
    due := Instant.of? 8210266876799 1000000000 }

/-- The store with the daily task and that one. -/
def besideDaily : Store := dailyStore.added [leapSecondBeside]

/-- The command for a pass makes the occurrence of the daily task where that is alone, and fails where a
task stands beside it that does not come back from the store. -/
theorem disturbed_besideDaily :
    ReachableBy (fun _ => True) dailyStore ∧ ReachableBy (fun _ => True) besideDaily ∧
      Store.AgreeOn daily dailyStore besideDaily ∧
      (∃ x, dailyStore.trigger (TaskId.drawn 1) {} start.now = .ok x) ∧
      (∀ x, besideDaily.trigger (TaskId.drawn 1) {} start.now ≠ .ok x) ∧
      ¬ Store.SamePass daily dailyStore besideDaily
        ({ start with store := dailyStore }.run (TaskId.drawn 1) .gc).2.store
        ({ start with store := besideDaily }.run (TaskId.drawn 1) .gc).2.store := by
  have hbeside : ReachableBy (fun _ => True) besideDaily :=
    @reachableBy_behindDaily "y" leapSecondDue _ (by decide +kernel)
  have hagree : Store.AgreeOn daily dailyStore besideDaily := agreeOn_behindDaily nofun
  have hready : dailyStore.Ready (TaskId.drawn 1) :=
    ⟨reachable_dailyStore.wellFormed, rfl, hasFreshIds_dailyStore.mono (Nat.le_add_right _ _)⟩
  have hready' : besideDaily.Ready (TaskId.drawn 1) :=
    ⟨hbeside.wellFormed, rfl, Store.fresh_of_map_id_eq rfl (by decide)⟩
  have horder : ∀ parents : List Task, (id parents).Perm parents := fun _ => List.Perm.refl _
  have hpass : dailyStore.Passable {} start.now :=
    Store.passable_of_readable reachable_dailyStore.wellFormed (by decide +kernel) (by decide) (by decide)
  -- the occurrence is missing in both stores, but one of them cannot be read as a whole
  have hacts : besideDaily.Acts {} start.now := by
    refine .inl ⟨rfl, fun hcaught => ?_⟩
    have henough := hcaught daily hagree.right rfl goesOn_daily
    exact absurd henough (by decide)
  have hpass' : ¬ besideDaily.Passable {} start.now := fun hpass' =>
    absurd (hpass'.reading (.inr hacts)) (by decide +kernel)
  have hidle : ¬ dailyStore.SeriesIdle {} start.now daily := fun hidle =>
    absurd (hidle.2 rfl rfl goesOn_daily) (by decide)
  refine ⟨reachableBy_dailyStore, hbeside, hagree, ?_, fun x hx => ?_, ?_⟩
  · simp only [Store.trigger_eq_triggerAlong]
    exact (Store.exists_triggerAlong_eq_ok_iff hready.wellFormed rfl horder hready.fresh).mpr hpass
  · rw [Store.trigger_eq_triggerAlong] at hx
    exact hpass' ((Store.exists_triggerAlong_eq_ok_iff hready'.wellFormed rfl horder
      hready'.fresh).mp ⟨x, hx⟩)
  · rw [Store.store_run_gc, Store.store_run_gc]
    intro hsame
    rcases (Store.samePass_afterPass_iff hready hready' horder horder hagree).mp hsame with hboth | h
    · exact hpass' (hboth.mp hpass)
    · exact hidle h

end Tracker

end TaskSeries
