import TaskSeries.Proofs.Tracker.DueDates

/-!
# Commands that fail

A command that fails leaves the store as it was, also when the pass that it begins with has generated
and deleted tasks already: nothing is kept unless the command succeeds as a whole. The one exception is a
listing in which there is nothing to list. It keeps what the pass has done, as the command for a pass
would, and arises exactly when a count gives zero (`Tracker.store_of_failed`).
-/

namespace TaskSeries.Tracker

open TaskSeries.Calendar TaskSeries.Series

variable {t : Tracker} {draw : Nat → TaskId} {command : Command} {f : Fault}

/-! ## Commands one by one -/

/-- A change of the store that has failed left everything alone. -/
lemma store_of_transact_error {α : Type} {change : Store → Except Fault (α × Store)}
    (x : Except Fault α × Tracker) (hx : t.transact change = x) (h : x.1 = .error f) :
    x.2.store = t.store := by
  rcases transact_cases x hx with ⟨a, s, -, rfl⟩ | ⟨f', -, rfl⟩
  · exact absurd h nofun
  · rfl

/-- A command fails when the part that it consists of does, and leaves the store as that part does. -/
lemma store_of_map_error {α : Type} {x : Except Fault α × Tracker} {answer : α → Reply}
    (hx : x.1 = .error f → x.2.store = t.store) (h : (x.map (Except.map answer) id).1 = .error f) :
    (x.map (Except.map answer) id).2.store = t.store := by
  obtain ⟨result, t'⟩ := x
  cases result with
  | ok a => exact absurd h nofun
  | error f' => exact hx (congrArg Except.error (Except.error.inj h))

/-- A mutation that fails leaves the store alone, however far it has come. -/
lemma store_of_propagate_error {token : String} {m : Mutation}
    (h : (t.propagate draw token m).1 = .error f) : (t.propagate draw token m).2.store = t.store := by
  rcases t.propagate_cases draw token m with ⟨-, -, hstore⟩ |
    ⟨s, on, candidates, outcome, c, s', -, -, -, hpropagate⟩
  · exact hstore
  · rw [hpropagate] at h
    exact absurd h nofun

/-- An edit that fails leaves the store alone. -/
lemma store_of_modify_error {token : String} {fields : Fields}
    (h : (t.modify draw token fields).1 = .error f) :
    (t.modify draw token fields).2.store = t.store := by
  unfold modify at h ⊢
  split
  · rfl
  · rename_i edit hedit
    rw [hedit] at h
    dsimp only at h
    split_ifs at h ⊢
    · rfl
    · exact store_of_propagate_error h

/-- A command that neither lists nor counts leaves the store alone when it fails. -/
lemma store_of_error (hlist : ∀ sort, command ≠ .list sort) (hcount : command ≠ .count)
    (h : (t.run draw command).1 = .error f) : (t.run draw command).2.store = t.store := by
  cases command <;> unfold run at h ⊢ <;> dsimp only at h ⊢
  case add description fields =>
    exact store_of_map_error (store_of_transact_error (t.add draw description fields) rfl) h
  case list sort => exact absurd rfl (hlist sort)
  case count => exact absurd rfl hcount
  case gc => exact store_of_map_error (store_of_transact_error (t.gc draw) rfl) h
  case modify token fields => exact store_of_map_error store_of_modify_error h
  case delete token =>
    unfold delete at h ⊢
    exact store_of_map_error store_of_propagate_error h
  case done token => exact store_of_map_error (store_of_transact_error (t.done token) rfl) h

/-! ## Listing and counting -/

/-- How listing and counting end: both show something, or there is nothing to show, which is a fault for
one of them and zero for the other, or both fail and leave the tracker as it was. -/
inductive Shows (t : Tracker) (draw : Nat → TaskId) (sort : SortKey) : Prop
  | some {tasks : List Task} {s : Store} (hsome : tasks ≠ [])
    (hlist : t.run draw (.list sort) =
      (.ok (.tasks (Listing.sort sort tasks)), { t with store := s }))
    (hcount : t.run draw .count = (.ok (.number tasks.length), { t with store := s }))
  | none {r : TriggerReport} {s : Store}
    (hgc : t.run draw .gc = (.ok (.pass r), { t with store := s }))
    (hlist : t.run draw (.list sort) = (.error .noMatch, { t with store := s }))
    (hcount : t.run draw .count = (.ok (.number 0), { t with store := s }))
  | failed {f : Fault} (hf : f ≠ .noMatch) (hlist : t.run draw (.list sort) = (.error f, t))
    (hcount : t.run draw .count = (.error f, t))

lemma shows (t : Tracker) (draw : Nat → TaskId) (sort : SortKey) : Shows t draw sort := by
  rcases t.listed_cases draw with ⟨tasks, r, s, hpass, hlisted⟩ | ⟨f, hf, hlisted⟩
  · have hlist := run_list_of_listed hlisted sort
    have hcount := run_count_of_listed hlisted
    cases tasks with
    | nil => exact .none (run_gc hpass) hlist hcount
    | cons task tasks => exact .some (List.cons_ne_nil task tasks) hlist hcount
  · exact .failed hf (run_list_of_listed hlisted sort) (run_count_of_listed hlisted)

/-! ## All commands -/

/-- A command that fails has left the store alone, whatever the store holds, in every configuration, at
every instant and with every answer. The one exception is a listing that finds nothing: that is when a
count gives zero, and everything is then as the command for a pass would have left it. -/
theorem store_of_failed (t : Tracker) (draw : Nat → TaskId) :
    (∀ command f, (t.run draw command).1 = .error f →
        (∃ sort, command = .list sort ∧ f = .noMatch) ∨ (t.run draw command).2.store = t.store) ∧
      ∀ sort, ((t.run draw (.list sort)).1 = .error .noMatch ↔
          (t.run draw .count).1 = .ok (.number 0)) ∧
        ((t.run draw (.list sort)).1 = .error .noMatch →
          ∃ r, t.run draw .gc = (.ok (.pass r), (t.run draw (.list sort)).2)) := by
  constructor
  · intro command f h
    cases command with
    | list sort =>
      cases shows t draw sort with
      | some _ hlist _ =>
        rw [hlist] at h
        exact absurd h nofun
      | none _ hlist _ =>
        rw [hlist] at h
        exact Or.inl ⟨sort, rfl, (Except.error.inj h).symm⟩
      | failed _ hlist _ =>
        rw [hlist]
        exact Or.inr rfl
    | count =>
      cases shows t draw .byDue with
      | some _ _ hcount =>
        rw [hcount] at h
        exact absurd h nofun
      | none _ _ hcount =>
        rw [hcount] at h
        exact absurd h nofun
      | failed _ _ hcount =>
        rw [hcount]
        exact Or.inr rfl
    | _ => exact Or.inr (store_of_error (fun _ => nofun) nofun h)
  · intro sort
    cases shows t draw sort with
    | some hsome hlist hcount =>
      rw [hlist, hcount]
      refine ⟨⟨fun h => absurd h nofun, fun h => ?_⟩, fun h => absurd h nofun⟩
      have hzero := Reply.number.inj (Except.ok.inj h)
      exact absurd (List.length_eq_zero_iff.mp hzero) hsome
    | @none r s hgc hlist hcount =>
      rw [hlist, hcount, hgc]
      exact ⟨⟨fun _ => rfl, fun _ => rfl⟩, fun _ => ⟨r, rfl⟩⟩
    | failed hf hlist hcount =>
      rw [hlist, hcount]
      refine ⟨⟨fun h => ?_, fun h => absurd h nofun⟩, fun h => ?_⟩
      · exact absurd (Except.error.inj h) hf
      · exact absurd (Except.error.inj h) hf

/-! ## A listing that keeps what it has done -/

/-- A task that has expired the day before. -/
def pastTask : Task :=
  { Task.fresh (TaskId.drawn 1 0) "x" start.now with expiry := start.now.plusDays (-1) }

/-- The store with that task. -/
def pastStore : Store := ({} : Store).added [pastTask]

/-- The store in which that task was deleted. -/
def clearedStore : Store := pastStore.changed [pastTask] (Mutation.delete.apply start.now)

lemma wellFormed_pastStore : pastStore.WellFormed :=
  Store.wellFormed_empty.added (structured_nil.enter List.not_mem_nil rfl rfl)

/-- A pass deletes the task. -/
lemma trigger_pastStore (draw : Nat → TaskId) :
    pastStore.trigger draw { policy := .expire } start.now = .ok (⟨0, 1⟩, clearedStore) := by
  have hwf := wellFormed_pastStore
  have hall : pastStore.all = .ok [pastTask] := by
    rw [show pastStore.all = .ok ([pastTask].mergeSort Store.entryMaskLe) from rfl,
      List.mergeSort_singleton]
  have hexpire : pastStore.expire start.now = .ok (1, clearedStore) := by
    refine bind_eq_ok.mpr ⟨[pastTask], hall, bind_eq_ok.mpr ⟨clearedStore, ?_, rfl⟩⟩
    exact Store.updateAll_map_eq_ok hwf (by decide) (fun _ => rfl) rfl
  rw [Store.trigger_eq_ok_iff]
  refine ⟨pastStore, (Store.generate_eq_nothing_iff hwf).mpr fun _ => ?_, hexpire, fun _ => ?_⟩
  · have hnone : ∀ p ∈ pastStore.tasks, ¬ p.isActiveParent = true := by decide
    exact ⟨fun p hp hactive => absurd hactive (hnone p hp),
      fun p hp hactive => absurd hactive (hnone p hp)⟩
  · exact (Store.check_eq_ok_iff (hwf.changed _ (keeps_apply _ _))).mpr (by decide)

/-- The pass of a listing deletes the only task, and nothing is left to be listed. -/
lemma listed_pastStore :
    (expiring pastStore).listed (TaskId.drawn 1) = (.ok [], expiring clearedStore) := by
  have hall : clearedStore.all = .ok clearedStore.tasks := by
    rw [show clearedStore.all = .ok (clearedStore.tasks.mergeSort Store.entryMaskLe) from rfl]
    exact congrArg Except.ok (List.mergeSort_singleton _)
  refine transact_eq_ok (bind_eq_ok.mpr ⟨_, trigger_pastStore _, ?_⟩)
  exact bind_eq_ok.mpr ⟨_, mapError_eq_ok.mpr hall, rfl⟩

/-- Two commands that fail: a deletion for which a pass has made two occurrences in vain, and a listing
that keeps the deletion of an expired task, as a pass of its own does. -/
theorem failing_keepingTwo :
    (dailyStore.trigger (TaskId.drawn 1) { limit := 2 } start.now = .ok (⟨2, 0⟩, twoStore) ∧
      ((keepingTwo dailyStore).run (TaskId.drawn 1) (.delete "nope")).1 =
        .error (.taskNotFound "nope") ∧
      ((keepingTwo dailyStore).run (TaskId.drawn 1) (.delete "nope")).2.store = dailyStore) ∧
    ((expiring pastStore).run (TaskId.drawn 1) .count).1 = .ok (.number 0) ∧
    ((expiring pastStore).run (TaskId.drawn 1) (.list .byDue)).1 = .error .noMatch ∧
    ((expiring pastStore).run (TaskId.drawn 1) (.list .byDue)).2.store = clearedStore := by
  have haddress : (keepingTwo dailyStore).address (TaskId.drawn 1) "nope" =
      .error (.taskNotFound "nope") := by
    refine bind_eq_error.mpr (Or.inr ⟨_, trigger_keepingTwo, bind_eq_error.mpr (Or.inl ?_)⟩)
    decide +kernel
  have hdelete : ((keepingTwo dailyStore).run (TaskId.drawn 1) (.delete "nope")).1 =
      .error (.taskNotFound "nope") := by
    have hmutation : (Command.delete "nope").mutation? (keepingTwo dailyStore).now =
        some ("nope", .delete) := rfl
    rw [run_of_mutation hmutation]
    unfold propagate
    rw [haddress]
    rfl
  have hcount : ((expiring pastStore).run (TaskId.drawn 1) .count).1 = .ok (.number 0) :=
    congrArg Prod.fst (run_count_of_listed listed_pastStore)
  obtain ⟨hsame, hkept⟩ := (store_of_failed (expiring pastStore) (TaskId.drawn 1)).2 .byDue
  obtain ⟨r, hgc⟩ := hkept (hsame.mpr hcount)
  refine ⟨⟨trigger_keepingTwo, hdelete, ?_⟩, hcount, hsame.mpr hcount, ?_⟩
  · exact ((store_of_failed (keepingTwo dailyStore) (TaskId.drawn 1)).1 _ _ hdelete).resolve_left nofun
  · rw [run_gc (trigger_pastStore _)] at hgc
    exact (congrArg (fun x => x.2.store) hgc).symm

end TaskSeries.Tracker
