import TaskSeries.Proofs.Series.GoesOn
import TaskSeries.Proofs.Store.Changing

/-!
# A pass over a well-formed store

A pass generates the missing occurrences of one parent after another, each at the next places of its
series as far as they fit into 32 bits, and deletes tasks whose expiry has passed without moving any. From
a well-formed store, with enough fresh ids, it ends in a well-formed store or in a fault that no broken
series causes (`Store.ends_trigger`).
-/

namespace TaskSeries

open TaskSeries.Calendar TaskSeries.Series

/-! ## What a pass makes -/

/-- What is made for a parent are occurrences at the next places, no more than one pass may make. -/
lemma Series.exists_materialize_eq (parent : Task) (children : List Task) (now : Instant)
    (horizon : Nat) (draw : Nat → TaskId) :
    ∃ dues, dues.length ≤ mostPerPass ∧ materialize parent children now horizon draw =
      occurrences parent now draw (nextMask children) dues := by
  rcases dated_or_materialize_eq_nil parent with ⟨p, first, hrecur, hdue⟩ | hnil
  · refine ⟨_, ?_, materialize_of_some hrecur hdue _ _ _ _⟩
    rw [missingDues_eq_take]
    exact List.length_take_le _ _
  · exact ⟨[], Nat.zero_le _, hnil _ _ _ _⟩

/-- What is missing fits as long as there is room for the most that one pass may make. -/
lemma Series.fits_of_room {parent : Task} {children : List Task} {now : Instant} {horizon : Nat}
    (hroom : nextMask children + mostPerPass ≤ lastPlace) : Fits parent children now horizon := by
  intro _ _
  obtain ⟨dues, hlen, hmade⟩ := exists_materialize_eq parent children now horizon fun _ => parent.id
  unfold lacking
  rw [hmade, length_occurrences]
  omega

lemma Series.map_id_occurrences (parent : Task) (now : Instant) (draw : Nat → TaskId) (start : Nat)
    (dues : List Instant) :
    (occurrences parent now draw start dues).map Task.id = (List.range dues.length).map draw := by
  unfold occurrences
  rw [List.map_map, List.range_eq_range', ← List.zipIdx_map_snd 0 dues, List.map_map]
  rfl

namespace Store

variable {s : Store} {draw : Nat → TaskId} {now : Instant} {horizon : Nat} {parent : Task}

/-- The tasks are what a pass makes for a parent, and the structure of the store bears them. -/
structure Generated (draw : Nat → TaskId) (now : Instant) (horizon : Nat) (parent : Task) (s : Store)
    (made : List Task) : Prop where
  made_eq : ∃ children, children.Perm (s.children parent.id) ∧
    made = materialize parent children now horizon fun i => draw (s.issued + i)
  structured : Structured (s.tasks ++ made)

/-- Behind every occurrence of a stored parent there is a place to count on to. -/
lemma WellFormed.counted {children : List Task} (h : s.WellFormed) {p : TaskId}
    (hperm : children.Perm (s.children p)) :
    ∀ t ∈ children, ∀ m, t.mask = some m → m < lastPlace := fun t ht =>
  h.structured.counted t (mem_childrenIn.mp (hperm.mem_iff.mp ht)).1

/-- What fits is borne by the structure of the store once its ids are new. -/
lemma generated_of_nodup {children : List Task} (h : s.WellFormed)
    (hparent : DefinesSeries s.tasks parent.id) (hperm : children.Perm (s.children parent.id))
    (hfits : Fits parent children now horizon)
    (hids : ((s.tasks ++ materialize parent children now horizon
      fun i => draw (s.issued + i)).map Task.id).Nodup) :
    Generated draw now horizon parent s
      (materialize parent children now horizon fun i => draw (s.issued + i)) where
  made_eq := ⟨children, hperm, rfl⟩
  structured := by
    obtain ⟨dues, -, hmade⟩ := exists_materialize_eq parent children now horizon
      fun i => draw (s.issued + i)
    have hlength := hfits.add_length_le (h.counted hperm) fun i => draw (s.issued + i)
    rw [hmade, length_occurrences] at hlength
    rw [hmade] at hids ⊢
    exact h.structured.addOccurrences hparent hperm hids hlength

/-- What is generated are occurrences for some dates, no more than a pass may make. -/
lemma Generated.exists_dues {made : List Task} (h : Generated draw now horizon parent s made) :
    ∃ start dues, dues.length ≤ mostPerPass ∧
      made = occurrences parent now (fun i => draw (s.issued + i)) start dues := by
  obtain ⟨children, -, rfl⟩ := h.made_eq
  obtain ⟨dues, hlen, hmade⟩ := exists_materialize_eq parent children now horizon
    fun i => draw (s.issued + i)
  exact ⟨nextMask children, dues, hlen, hmade⟩

lemma Generated.length_le {made : List Task} (h : Generated draw now horizon parent s made) :
    made.length ≤ mostPerPass := by
  obtain ⟨start, dues, hlen, rfl⟩ := h.exists_dues
  rw [length_occurrences]
  exact hlen

/-- What is generated takes the ids that are drawn, in order. -/
lemma Generated.map_id {made : List Task} (h : Generated draw now horizon parent s made) :
    made.map Task.id = (List.range made.length).map fun i => draw (s.issued + i) := by
  obtain ⟨start, dues, -, rfl⟩ := h.exists_dues
  rw [map_id_occurrences, length_occurrences]

/-- What is generated belongs to the parent. -/
lemma Generated.parent_eq {made : List Task} (h : Generated draw now horizon parent s made)
    {t : Task} (ht : t ∈ made) : t.parent = some parent.id := by
  obtain ⟨start, dues, -, rfl⟩ := h.exists_dues
  obtain ⟨i, due, -, rfl⟩ := mem_occurrences ht
  rfl

/-- What is made for one parent is no occurrence of another one. -/
lemma Generated.childrenIn_of_ne {made : List Task} (h : Generated draw now horizon parent s made)
    {p : TaskId} (hne : p ≠ parent.id) : childrenIn made p = [] :=
  childrenIn_eq_nil fun t ht hparent => by
    rw [h.parent_eq ht] at hparent
    exact hne (Option.some.inj hparent).symm

/-- Tasks that are added take no series away. -/
lemma definesSeries_added {made : List Task} {p : TaskId} (h : DefinesSeries s.tasks p) :
    DefinesSeries (s.added made).tasks p := by
  obtain ⟨t, ht, hdefines⟩ := h
  refine ⟨t, ?_, hdefines⟩
  rw [tasks_added]
  exact List.mem_append_left _ ht

/-! ## Generating -/

/-- With fresh ids, the store bears what a parent is missing, as far as it fits. -/
lemma generated_of_fresh {children : List Task} (h : s.WellFormed)
    (hparent : DefinesSeries s.tasks parent.id) (hfresh : s.Fresh draw mostPerPass)
    (hperm : children.Perm (s.children parent.id)) (hfits : Fits parent children now horizon) :
    Generated draw now horizon parent s
      (materialize parent children now horizon fun i => draw (s.issued + i)) := by
  refine generated_of_nodup h hparent hperm hfits ?_
  obtain ⟨dues, hlen, hmade⟩ := exists_materialize_eq parent children now horizon
    fun i => draw (s.issued + i)
  rw [hmade, List.map_append, map_id_occurrences]
  exact hfresh.mono hlen

/-- The parent of what was made is stored. -/
lemma Generated.mem_ids {made : List Task} (h : Generated draw now horizon parent s made)
    (hparent : DefinesSeries s.tasks parent.id) :
    ∀ t ∈ made, ∀ p, t.parent = some p → p ∈ s.tasks.map Task.id := by
  intro t ht p hp
  rw [h.parent_eq ht] at hp
  obtain ⟨q, hq, hid, -⟩ := hparent
  rw [← Option.some.inj hp, ← hid]
  exact List.mem_map_of_mem hq

/-- Generating for a parent succeeds when its occurrences are read, what is missing fits, and the store
takes it in. -/
lemma generateFor_eq_ok_iff {x : Nat × Store} :
    s.generateFor draw now horizon parent = .ok x ↔
      ∃ children, s.childrenOf parent.id = .ok children ∧ Fits parent children now horizon ∧
        ∃ next, s.insertDrawn (materialize parent children now horizon fun i => draw (s.issued + i)) =
          .ok next ∧
          x = ((materialize parent children now horizon fun i => draw (s.issued + i)).length, next) := by
  unfold generateFor
  rw [bind_eq_ok]
  refine exists_congr fun children => and_congr mapError_eq_ok ?_
  cases hmade : materialize? parent children now horizon fun i => draw (s.issued + i) with
  | none => exact ⟨nofun, fun h => absurd h.1 (materialize?_eq_none_iff.mp hmade)⟩
  | some made =>
    obtain ⟨hfits, rfl⟩ := materialize?_eq_some_iff.mp hmade
    dsimp only
    rw [bind_eq_ok, and_iff_right hfits]
    refine exists_congr fun next => and_congr mapError_eq_ok ?_
    exact ⟨fun h => (Except.ok.inj h).symm, fun h => congrArg Except.ok h.symm⟩

/-- With fresh ids, the occurrences that one parent is missing go into the store. -/
lemma ends_generateFor (h : s.WellFormed) (hparent : DefinesSeries s.tasks parent.id)
    (hfresh : s.Fresh draw mostPerPass) :
    Ends (fun x => ∃ made, Generated draw now horizon parent s made ∧
        x = (made.length, s.added made))
      (fun f => f.breaksSeries = false) (s.generateFor draw now horizon parent) := by
  unfold generateFor
  have hread : Ends (fun l => l.Perm (s.children parent.id)) (fun f => f.breaksSeries = false)
      ((s.childrenOf parent.id).mapError Fault.store) := (h.ends_childrenOf parent.id).mapError
  refine hread.bind fun children hperm => ?_
  cases hmade : materialize? parent children now horizon fun i => draw (s.issued + i) with
  | none => exact .error rfl
  | some made =>
    obtain ⟨hfits, rfl⟩ := materialize?_eq_some_iff.mp hmade
    have hgenerated := generated_of_fresh h hparent hfresh hperm hfits
    have hinsert := h.ends_insertDrawn hgenerated.structured (hgenerated.mem_ids hparent)
    refine (Ends.mapError hinsert).bind ?_
    rintro next rfl
    exact .ok ⟨_, hgenerated, rfl⟩

/-- What generating for a parent has done when it has succeeded. -/
lemma generateFor_eq_ok {x : Nat × Store} (h : s.WellFormed)
    (hparent : DefinesSeries s.tasks parent.id)
    (hok : s.generateFor draw now horizon parent = .ok x) :
    ∃ made, Generated draw now horizon parent s made ∧ x = (made.length, s.added made) := by
  obtain ⟨children, hchildren, hfits, next, hinsert, rfl⟩ := generateFor_eq_ok_iff.mp hok
  obtain ⟨hnext, hids⟩ := insertDrawn_eq_ok h.structured.ids hinsert
  have hperm := (hchildren ▸ h.ends_childrenOf parent.id).of_ok
  refine ⟨_, generated_of_nodup h hparent hperm hfits hids, ?_⟩
  rw [hnext]

lemma definesSeries_of_isActiveParent (hactive : parent ∈ s.tasks.filter Task.isActiveParent) :
    DefinesSeries s.tasks parent.id := by
  obtain ⟨hmem, hactive⟩ := List.mem_filter.mp hactive
  unfold Task.isActiveParent Task.isRecurringParent at hactive
  rw [Bool.and_eq_true, Bool.and_eq_true, Option.isNone_iff_eq_none] at hactive
  exact ⟨parent, hmem, rfl, hactive.1.1, hactive.1.2⟩

/-- One step of the walk along the parents. -/
def generateNext (draw : Nat → TaskId) (now : Instant) (horizon : Nat) (x : Nat × Store)
    (parent : Task) : Except Fault (Nat × Store) :=
  (x.2.generateFor draw now horizon parent).map fun y => (x.1 + y.1, y.2)

lemma generate_eq (settings : RecurrenceSettings) :
    s.generate draw settings now = if settings.enabled then
      s.activeParents.mapError Fault.store >>= fun parents =>
        parents.foldlM (generateNext draw now settings.horizon) (0, s)
    else .ok (0, s) := rfl

/-- What the walk along the parents needs: a well-formed store, the parents that are left in it, and
the fresh ids that they can use up. -/
def CanGenerate (draw : Nat → TaskId) (rest : List Task) (x : Nat × Store) : Prop :=
  x.2.WellFormed ∧ x.2.Fresh draw (rest.length * mostPerPass) ∧
    ∀ p ∈ rest, DefinesSeries x.2.tasks p.id

/-- Parents whose series go on can be visited in every order. -/
lemma canGenerate_of_perm {parents : List Task} (h : s.WellFormed)
    (hperm : parents.Perm (s.tasks.filter Task.isActiveParent))
    (hfresh : s.Fresh draw (s.tasks.length * mostPerPass)) : CanGenerate draw parents (0, s) := by
  refine ⟨h, hfresh.mono ?_, fun p hp => ?_⟩
  · rw [hperm.length_eq]
    exact Nat.mul_le_mul_right _ (List.length_filter_le _ _)
  · exact definesSeries_of_isActiveParent (hperm.mem_iff.mp hp)

/-- One parent after another can be visited: each visit leaves a store for the rest. -/
lemma CanGenerate.ends_generateNext {rest : List Task} {x : Nat × Store}
    (h : CanGenerate draw (parent :: rest) x) :
    Ends (CanGenerate draw rest) (fun f => f.breaksSeries = false)
      (generateNext draw now horizon x parent) := by
  obtain ⟨hwf, hfresh, hstored⟩ := h
  have hparent := hstored parent List.mem_cons_self
  -- the first ids are for this parent, the others for the rest
  rw [List.length_cons, Nat.succ_mul, Nat.add_comm] at hfresh
  refine Ends.map ((ends_generateFor hwf hparent (hfresh.mono (Nat.le_add_right _ _))).mono ?_)
  rintro _ ⟨made, hmade, rfl⟩
  refine ⟨hwf.added hmade.structured, ?_, fun q hq => ?_⟩
  · have hlen := hmade.length_le
    exact Fresh.added (hfresh.mono (by omega)) hmade.map_id
  · exact definesSeries_added (hstored q (List.mem_cons_of_mem parent hq))

/-- Generation leaves a well-formed store, or fails without breaking a series. -/
lemma ends_generate (h : s.WellFormed) (settings : RecurrenceSettings)
    (hfresh : s.Fresh draw (s.tasks.length * mostPerPass)) :
    Ends (fun x => x.2.WellFormed) (fun f => f.breaksSeries = false)
      (s.generate draw settings now) := by
  rw [generate_eq]
  split_ifs
  · have hread : Ends (fun l => l.Perm (s.tasks.filter Task.isActiveParent))
        (fun f => f.breaksSeries = false) (s.activeParents.mapError Fault.store) :=
      h.ends_activeParents.mapError
    refine hread.bind fun parents hperm => ?_
    have hcan := canGenerate_of_perm h hperm hfresh
    exact (Ends.foldlM (fun _ _ _ hx => hx.ends_generateNext) hcan).mono fun x hx => hx.1
  · exact .ok h

/-! ## Expiring -/

/-- Expiring changes the tasks whose expiry has passed into deleted ones. -/
lemma ends_expire (h : s.WellFormed) (now : Instant) :
    Ends (fun x => ∃ past : List Task, past.Perm (s.tasks.filter (isPast now)) ∧
        x = (past.length, s.changed past (Mutation.delete.apply now)))
      (fun f => f.breaksSeries = false) (s.expire now) := by
  unfold expire
  refine h.ends_all.bind fun tasks hperm => ?_
  have hstored : ∀ t ∈ tasks.filter (isPast now), t ∈ s.tasks := by
    intro t ht
    exact hperm.mem_iff.mp (List.mem_filter.mp ht).1
  refine (ends_updateAll s _).bind ?_
  rintro next rfl
  refine .ok ⟨_, hperm.filter _, ?_⟩
  rw [replaced_map h hstored fun t => (keeps_apply .delete now t).id]

/-- The second half of a pass: expiring where the policy asks for it. -/
def expireUnder (settings : RecurrenceSettings) (now : Instant) (s : Store) :
    Except StoreFault (Nat × Store) :=
  if settings.policy = .expire then s.expire now else .ok (0, s)

/-- Expiring leaves a well-formed store well-formed under every policy. -/
lemma ends_expireUnder (h : s.WellFormed) (settings : RecurrenceSettings) (now : Instant) :
    Ends (fun x => x.2.WellFormed) (fun f => f.breaksSeries = false)
      (s.expireUnder settings now) := by
  unfold expireUnder
  split_ifs
  · refine (ends_expire h now).mono ?_
    rintro x ⟨past, hpast, rfl⟩
    exact h.changed past (keeps_apply _ _)
  · exact .ok h

/-! ## The whole pass -/

/-- A pass generates, expires, and checks the result when either has done something. -/
lemma trigger_eq (settings : RecurrenceSettings) : s.trigger draw settings now =
    s.generate draw settings now >>= fun x =>
      (x.2.expireUnder settings now).mapError Fault.store >>= fun y =>
        if x.1 + y.1 = 0 then .ok (⟨x.1, y.1⟩, y.2)
        else y.2.check >>= fun _ => .ok (⟨x.1, y.1⟩, y.2) := by
  unfold trigger expireUnder
  refine congrArg _ (funext fun x => ?_)
  dsimp only
  split_ifs <;> rfl

/-- A pass over a well-formed store with enough fresh ids ends in a well-formed store, or in a fault
that no broken series causes. -/
lemma ends_trigger (h : s.WellFormed) (settings : RecurrenceSettings) (now : Instant)
    (hfresh : s.Fresh draw (s.tasks.length * mostPerPass)) :
    Ends (fun x => x.2.WellFormed) (fun f => f.breaksSeries = false)
      (s.trigger draw settings now) := by
  rw [trigger_eq]
  refine (ends_generate h settings hfresh).bind fun x hx => ?_
  refine (ends_expireUnder hx settings now).mapError.bind fun y hy => ?_
  split_ifs
  · exact .ok hy
  · exact hy.ends_check.bind fun _ _ => .ok hy

end Store

end TaskSeries
