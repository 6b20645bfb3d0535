import TaskSeries.Proofs.Series.Course
import TaskSeries.Proofs.Tracker.Expiry

/-!
# What a pass has done

A pass that succeeds has done nothing to a store that was caught up, or it has added what it made for
each parent, deleted what had expired, and found all tasks readable (`Store.Passed`). What holds of a
store after a pass is read off from these two cases; for one series they say that what was made stands
behind the occurrences that were there, with the due dates it was made with
(`Store.Grown.exists_made`).
-/

namespace TaskSeries

open TaskSeries.Calendar TaskSeries.Series

namespace Store

variable {s s' s₁ : Store} {draw : Nat → TaskId} {now : Instant} {settings : RecurrenceSettings}

/-! ## New occurrences -/

lemma mem_tasks_added {made : List Task} {t : Task} (ht : t ∈ s.tasks) :
    t ∈ (s.added made).tasks := by
  rw [tasks_added]
  exact List.mem_append_left _ ht

/-- No parent is among what was made. -/
lemma Grown.mem_of_isActiveParent {parents new : List Task} {horizon : Nat} {p : Task}
    (h : Grown now horizon s parents new) (hp : p ∈ (s.added new).tasks)
    (hactive : p.isActiveParent = true) : p ∈ s.tasks := by
  rw [tasks_added, List.mem_append] at hp
  rcases hp with hold | hnew
  · exact hold
  · obtain ⟨t, ht, rfl⟩ := List.mem_map.mp hnew
    obtain ⟨q, -, hparent⟩ := h.parent t ht
    unfold Task.isActiveParent Task.isRecurringParent at hactive
    rw [(keeps_stored t).parent, hparent] at hactive
    simp at hactive

/-! ## Deletions -/

/-- The deletions move no occurrence to another date. -/
lemma keepsDate_afterExpiry {t : Task} (ht : t.stored = t) :
    KeepsDate t (t.afterExpiry settings now) := by
  unfold Task.afterExpiry
  split_ifs
  · exact keepsDate_changedBy ht rfl fun hpending => absurd hpending nofun
  · exact KeepsDate.refl t

section
variable (htasks : s'.tasks = s₁.tasks.map (Task.afterExpiry settings now))
include htasks

lemma children_afterExpiry (p : TaskId) :
    s'.children p = (s₁.children p).map (Task.afterExpiry settings now) := by
  unfold children
  rw [htasks]
  exact childrenIn_map (fun t _ => keeps_afterExpiry.parent) p

/-- What was made for a parent is what its occurrences have become more. -/
lemma length_children_afterExpiry {made : List Task} (h : s₁ = s.added made) (p : TaskId) :
    (s'.children p).length = (s.children p).length + (childrenIn made p).length := by
  rw [children_afterExpiry htasks, h, children_added, List.length_map, List.length_append,
    List.length_map]

/-- A parent whose series goes on after expiry was there before as it is. -/
lemma mem_of_isActiveParent_afterExpiry {p : Task} (hp : p ∈ s'.tasks)
    (hactive : p.isActiveParent = true) : p ∈ s₁.tasks := by
  rw [htasks] at hp
  obtain ⟨t, ht, rfl⟩ := List.mem_map.mp hp
  rw [afterExpiry_eq_self hactive]
  exact ht

/-- Whether a series goes on does not change when tasks expire. -/
lemma goesOn_afterExpiry (h : s₁.Sound) (p : Task) :
    GoesOn p (s'.children p.id) ↔ GoesOn p (s₁.children p.id) := by
  rw [children_afterExpiry htasks]
  refine goesOn_map (fun t => keeps_afterExpiry.mask) (fun t ht => ?_) p
  exact due_afterExpiry (h.stored_eq (mem_childrenIn.mp ht).1)

/-- Due dates of readable tasks are regular, also those of tasks that were deleted on the way. -/
lemma due_le_of_readable (h : s₁.Sound) (hreadable : ∀ t ∈ s'.tasks, t.Readable) :
    ∀ t ∈ s₁.tasks, ∀ due, t.due = some due → due ≤ .lastRegular := by
  intro t ht due hdue
  have hmem : t.afterExpiry settings now ∈ s'.tasks := by
    rw [htasks]
    exact List.mem_map_of_mem ht
  refine hreadable _ hmem due ?_
  unfold Task.instants
  rw [due_afterExpiry (h.stored_eq ht), hdue]
  simp

end

/-! ## The two cases -/

/-- What a pass that succeeds has done to a store: nothing when the store was caught up, or else it has
added what it made for the parents whose series go on, and deleted what had expired. -/
inductive Passed (settings : RecurrenceSettings) (now : Instant) (s : Store) : Store → Prop
  | idle (hcaught : settings.enabled = true → s.CaughtUp settings.horizon now) :
    Passed settings now s s
  | acted {s' : Store} {parents new : List Task}
    (hgrown : Grown now settings.horizon s parents new)
    (hparents : parents.Perm (if settings.enabled then s.tasks.filter Task.isActiveParent else []))
    (htasks : s'.tasks = (s.added new).tasks.map (Task.afterExpiry settings now))
    (hs' : s'.WellFormed) (hreadable : ∀ t ∈ s'.tasks, t.Readable) : Passed settings now s s'

/-- A pass walks along the stored parents whose series go on, if it generates at all. -/
lemma mem_parents_iff {parents : List Task} {p : Task}
    (hparents : parents.Perm (if settings.enabled then s.tasks.filter Task.isActiveParent else [])) :
    p ∈ parents ↔ settings.enabled = true ∧ p ∈ s.tasks ∧ p.isActiveParent = true := by
  rw [hparents.mem_iff]
  split_ifs with henabled
  · rw [List.mem_filter, and_iff_right henabled]
  · exact ⟨fun hp => absurd hp List.not_mem_nil, fun hp => absurd hp.1 henabled⟩

lemma mem_of_mem_parents {parents : List Task} {p : Task}
    (hparents : parents.Perm (if settings.enabled then s.tasks.filter Task.isActiveParent else []))
    (hp : p ∈ parents) : p ∈ s.tasks :=
  ((mem_parents_iff hparents).mp hp).2.1

/-- A pass that succeeds has done one of the two. -/
lemma passed_of_trigger {r : TriggerReport} (h : s.WellFormed)
    (hok : s.trigger draw settings now = .ok (r, s')) : Passed settings now s s' := by
  obtain ⟨s₁, hgenerate, hexpire, hcheck⟩ := trigger_eq_ok_iff.mp hok
  obtain ⟨parents, new, hgrown, hx, hparents⟩ := generate_eq_ok h hgenerate
  obtain ⟨hcount, rfl⟩ := Prod.mk.inj hx
  obtain ⟨hs', hsame, htasks⟩ := expireUnder_eq_ok hgrown.wellFormed hexpire
  by_cases hnothing : r.generated + r.expired = 0
  · have hnew : new = [] := List.length_eq_zero_iff.mp (by omega)
    have heq : s' = s := by rw [hsame (by omega), hnew, added_nil]
    obtain ⟨generated, expired⟩ := r
    obtain ⟨rfl, rfl⟩ : generated = 0 ∧ expired = 0 := Nat.add_eq_zero_iff.mp hnothing
    rw [heq] at hok ⊢
    exact .idle fun henabled => (((trigger_eq_nothing_iff h).mp hok).1 henabled).2
  · -- what was done has been checked, so that all tasks are readable
    exact .acted hgrown hparents htasks hs' ((check_eq_ok_iff hs').mp (hcheck hnothing))

/-- A pass leaves a well-formed store. -/
lemma Passed.wellFormed (h : Passed settings now s s') (hs : s.WellFormed) : s'.WellFormed := by
  cases h with
  | idle _ => exact hs
  | acted _ _ _ hs' _ => exact hs'

/-- A pass does not change whether the store may be written. -/
lemma readOnly_of_trigger {r : TriggerReport} (h : s.WellFormed)
    (hok : s.trigger draw settings now = .ok (r, s')) : s'.readOnly = s.readOnly := by
  obtain ⟨s₁, hgenerate, hexpire, -⟩ := trigger_eq_ok_iff.mp hok
  obtain ⟨parents, new, hgrown, hx, -⟩ := generate_eq_ok h hgenerate
  obtain ⟨-, rfl⟩ := Prod.mk.inj hx
  unfold expireUnder at hexpire
  split_ifs at hexpire
  · obtain ⟨past, -, hx⟩ := (hexpire ▸ ends_expire hgrown.wellFormed now).of_ok
    rw [(Prod.mk.inj hx).2]
    rfl
  · rw [← (Prod.mk.inj (Except.ok.inj hexpire)).2]
    rfl

/-! ## One series -/

/-- Behind the occurrences of a parent stands what was made for it, with the due dates that it was made
with; nothing was made unless the parent's series goes on. -/
lemma Grown.exists_made {parents new : List Task} {horizon : Nat}
    (h : Grown now horizon s parents new) (hs : s.WellFormed)
    (hparents : ∀ p ∈ parents, p ∈ s.tasks)
    (hdue : ∀ t ∈ s.tasks, ∀ due, t.due = some due → due ≤ .lastRegular) (p : TaskId) :
    ∃ made, (s.added new).children p = (s.children p ++ made).map Task.stored ∧
      (∀ t ∈ s.children p ++ made, t.stored.due = t.due) ∧
      (made = [] ∨ ∃ parent ∈ parents, parent.id = p ∧ ∃ children draw,
        children.Perm (s.children p) ∧ made = materialize parent children now horizon draw) := by
  refine ⟨childrenIn new p, ?_, ?_, ?_⟩
  · rw [children_added, List.map_append, hs.sound.map_stored_children]
  · intro t ht
    rcases List.mem_append.mp ht with hold | hnew
    · rw [hs.sound.stored_eq (mem_childrenIn.mp hold).1]
    · obtain ⟨hmem, hparent⟩ := mem_childrenIn.mp hnew
      obtain ⟨q, hq, hqid⟩ := h.parent t hmem
      rw [hparent] at hqid
      rw [Option.some.inj hqid] at hnew
      exact (h.due_of_mem hs hdue hq (hparents q hq) hnew).1
  · by_cases hp : p ∈ parents.map Task.id
    · obtain ⟨parent, hparent, rfl⟩ := List.mem_map.mp hp
      obtain ⟨children, draw, hperm, hmade⟩ := h.made parent hparent
      exact Or.inr ⟨parent, hparent, rfl, children, draw, hperm, hmade⟩
    · exact Or.inl (h.childrenIn_of_ne hp)

/-- A pass continues every series. -/
lemma Passed.continues (h : Passed settings now s s') (hs : s.WellFormed) (id : TaskId) :
    Continues s.tasks id now settings.horizon (s'.children id) := by
  cases h with
  | idle _ => exact continues_self s.tasks id now settings.horizon
  | acted hgrown hparents htasks _ hreadable =>
    have hsound := hgrown.wellFormed.sound
    have hdue := due_le_of_readable htasks hsound hreadable
    obtain ⟨made, hlist, hkept, hmade⟩ := hgrown.exists_made hs
      (fun p hp => mem_of_mem_parents hparents hp) (fun t ht => hdue t (mem_tasks_added ht)) id
    have hnew : Continues s.tasks id now settings.horizon ((s.children id ++ made).map Task.stored) := by
      refine ⟨made, Task.stored, rfl, ?_, ?_⟩
      · exact fun t ht => ⟨rfl, hkept t ht, fun hpending => hpending⟩
      · refine hmade.imp_right ?_
        rintro ⟨parent, -, -, children, draw, hperm, rfl⟩
        exact ⟨parent, children, draw, hperm, rfl⟩
    rw [children_afterExpiry htasks, hlist]
    refine hnew.map ?_
    intro t ht
    obtain ⟨u, -, rfl⟩ := List.mem_map.mp ht
    exact keepsDate_afterExpiry u.stored_stored

/-- Under the gate policy, a pass that was not cut short leaves a series that goes on with enough
occurrences ahead. -/
lemma Passed.enough {p : Task} (h : Passed settings now s s') (hs : s.WellFormed)
    (henabled : settings.enabled = true) (hgate : settings.policy = .gate) (hp : p ∈ s'.tasks)
    (hactive : p.isActiveParent = true)
    (hfew : (s'.children p.id).length < (s.children p.id).length + mostPerPass)
    (hgoes : GoesOn p (s'.children p.id)) :
    settings.horizon ≤ pendingAhead (s'.children p.id) now := by
  cases h with
  | idle hcaught => exact hcaught henabled p hp hactive hgoes
  | @acted _ parents new hgrown hparents htasks _ hreadable =>
    have hdue := due_le_of_readable htasks hgrown.wellFormed.sound hreadable
    have hstored := hgrown.mem_of_isActiveParent
      (mem_of_isActiveParent_afterExpiry htasks hp hactive) hactive
    have hparent : p ∈ parents := (mem_parents_iff hparents).mpr ⟨henabled, hstored, hactive⟩
    have hmade : (childrenIn new p.id).length < mostPerPass := by
      rw [length_children_afterExpiry htasks rfl] at hfew
      omega
    -- nothing was deleted
    have hkept : s'.children p.id = (s.added new).children p.id := by
      rw [children_afterExpiry htasks]
      refine (List.map_congr_left fun t _ => ?_).trans (List.map_id' _)
      unfold Task.afterExpiry Task.expires
      rw [hgate]
      rfl
    rw [hkept] at hgoes ⊢
    exact hgrown.enough hs (fun t ht => hdue t (mem_tasks_added ht)) hparent hstored hmade hgoes

end Store

end TaskSeries
