import TaskSeries.Proofs.Store.Changing
import TaskSeries.Proofs.Tracker.Pass
import TaskSeries.Proofs.Tracker.Reachable

/-!
# What a command does to the store

A command that is given to a tracker leaves the store alone, enters a task, makes a pass, completes a
task, or makes a pass and changes a task and later ones of its series: `Call.effect` says so of every
command on a well-formed store, whatever ids are drawn.
-/

namespace TaskSeries

open TaskSeries.Calendar TaskSeries.Series

namespace Command

/-- The command makes a pass and changes nothing else. -/
def isPass : Command → Bool
  | .list _ | .count | .gc => true
  | _ => false

/-- The text by which a command addresses the task that it changes, and the mutation. A command that is
refused before it looks at the store has none. -/
def mutation? (now : Instant) : Command → Option (String × Mutation)
  | .modify token f =>
    match f.toEdit now with
    | .ok e => if e.isEmpty then none else some (token, .edit e)
    | .error _ => none
  | .delete token => some (token, .delete)
  | _ => none

/-- Only the command for it leads to an edit. -/
lemma modify_of_mutation? {command : Command} {token : String} {e : Edit} {now : Instant}
    (h : command.mutation? now = some (token, .edit e)) :
    ∃ fields, command = .modify token fields ∧ fields.toEdit now = .ok e := by
  cases command with
  | modify token' fields =>
    unfold mutation? at h
    dsimp only at h
    split at h
    · rename_i edit hedit
      split_ifs at h
      obtain ⟨rfl, hmutation⟩ := Prod.mk.inj (Option.some.inj h)
      rw [Mutation.edit.inj hmutation] at hedit
      exact ⟨fields, rfl, hedit⟩
    · exact absurd h nofun
  | delete token' => exact absurd (Prod.mk.inj (Option.some.inj h)).2 nofun
  | _ => exact absurd h nofun

end Command

/-! ## Parts of commands -/

/-- A proposal that does not fail changes the addressed task, and later occurrences of its series or
none. -/
lemma Coordinator.changed_of_propose {c c' : Coordinator} {m : Mutation} {on : Task}
    {candidates : List Task} {now : Instant} {outcome : Outcome}
    (h : c.propose m on candidates now = (.ok outcome, c')) :
    ∃ later, (∀ u ∈ later, u ∈ on.laterSiblings candidates) ∧
      outcome.changed = (on :: later).map (m.apply now) := by
  have hnone : ∀ u ∈ ([] : List Task), u ∈ on.laterSiblings candidates := by
    intro u hu
    exact absurd hu List.not_mem_nil
  unfold propose at h
  dsimp only at h
  split at h
  · rw [← Except.ok.inj (Prod.mk.inj h).1]
    exact ⟨[], hnone, rfl⟩
  · -- the answer decides whether the later ones are changed too
    split at h
    · rw [← Except.ok.inj (Prod.mk.inj h).1]
      exact ⟨_, fun u hu => hu, rfl⟩
    · rw [← Except.ok.inj (Prod.mk.inj h).1]
      exact ⟨[], hnone, rfl⟩
    · exact absurd (Prod.mk.inj h).1 nofun

namespace Tracker

variable {t : Tracker} {draw : Nat → TaskId}

/-! ### Entries -/

/-- Entering stores the task that the fields describe under a new id, or fails and leaves everything
alone. -/
lemma add_cases (h : (t.store.tasks.map Task.id).Nodup) (draw : Nat → TaskId) (description : String)
    (f : Fields) :
    (∃ task, f.newTask (draw t.store.issued) description t.now = .ok task ∧
        task.id ∉ t.store.tasks.map Task.id ∧
        t.add draw description f = (.ok task, { t with store := t.store.added [task] })) ∨
      ∃ fault, t.add draw description f = (.error fault, t) := by
  rcases transact_cases (t.add draw description f) rfl with ⟨task, s, hok, hadd⟩ | ⟨fault, -, hadd⟩
  · left
    obtain ⟨new, hnew, hok⟩ := bind_eq_ok.mp hok
    obtain ⟨next, hinsert, hok⟩ := bind_eq_ok.mp hok
    obtain ⟨rfl, rfl⟩ := Prod.mk.inj (Except.ok.inj hok)
    -- the store has refused no id, so that the drawn one is new
    obtain ⟨rfl, hids⟩ := Store.insertDrawn_eq_ok h (mapError_eq_ok.mp hinsert)
    rw [List.map_append, List.map_singleton, ← List.concat_eq_append, List.nodup_concat] at hids
    exact ⟨new, hnew, hids.1, hadd⟩
  · exact Or.inr ⟨fault, hadd⟩

/-! ### Passes -/

/-- The faults of the store are its own. -/
lemma ends_mapError_store {α : Type} (x : Except StoreFault α) :
    Ends (fun _ => True) (· ≠ Fault.noMatch) (x.mapError Fault.store) := by
  cases x with
  | ok a => exact .ok trivial
  | error cause => exact .error nofun

/-- Generating fails with the faults of the store, or overflows. -/
lemma ends_generate_ne_noMatch (s : Store) (settings : RecurrenceSettings) (now : Instant) :
    Ends (fun _ => True) (· ≠ Fault.noMatch) (s.generate draw settings now) := by
  have hnext : ∀ x parent, Ends (fun _ => True) (· ≠ Fault.noMatch)
      (Store.generateNext draw now settings.horizon x parent) := by
    intro x parent
    refine Ends.map ?_
    unfold Store.generateFor
    refine (ends_mapError_store _).bind fun children _ => ?_
    cases Series.materialize? parent children now settings.horizon fun i => draw (x.2.issued + i) with
    | none => exact .error nofun
    | some made => exact (ends_mapError_store _).bind fun _ _ => .ok trivial
  rw [Store.generate_eq]
  split_ifs
  · refine (ends_mapError_store _).bind fun parents _ => ?_
    show Ends ((fun (_ : List Task) (_ : Nat × Store) => True) []) _ _
    exact Ends.foldlM (fun parent _ x _ => hnext x parent) trivial
  · exact .ok trivial

/-- The checks report nothing but broken series. -/
lemma ends_check_ne_noMatch (s : Store) :
    Ends (fun _ => True) (· ≠ Fault.noMatch) s.check := by
  unfold Store.check
  refine (ends_mapError_store _).bind fun tasks _ => ?_
  unfold Integrity.check Integrity.checkIds Integrity.checkMasks
  cases Integrity.repeats (tasks.map Task.id) with
  | cons id rest => exact .error nofun
  | nil =>
    cases Integrity.repeats (tasks.filterMap Integrity.place?) with
    | cons place rest => exact .error nofun
    | nil => exact .ok trivial

/-- No part of a pass reports that there is nothing to list. -/
lemma trigger_ne_noMatch (s : Store) (settings : RecurrenceSettings) (now : Instant) :
    s.trigger draw settings now ≠ .error .noMatch := by
  have hends : Ends (fun _ => True) (· ≠ Fault.noMatch) (s.trigger draw settings now) := by
    rw [Store.trigger_eq]
    refine (ends_generate_ne_noMatch s settings now).bind fun x _ => ?_
    refine (ends_mapError_store _).bind fun y _ => ?_
    split_ifs
    · exact .ok trivial
    · exact (ends_check_ne_noMatch y.2).bind fun _ _ => .ok trivial
  intro h
  rw [h] at hends
  exact hends.of_error rfl

/-- Listing makes a pass and reads the store, or fails and leaves the store alone. -/
lemma listed_cases (t : Tracker) (draw : Nat → TaskId) :
    (∃ tasks r s, t.store.trigger draw t.config.recurrence t.now = .ok (r, s) ∧
        t.listed draw = (.ok tasks, { t with store := s })) ∨
      ∃ f, f ≠ .noMatch ∧ t.listed draw = (.error f, t) := by
  rcases transact_cases (t.listed draw) rfl with ⟨tasks, s, hok, hlisted⟩ | ⟨f, hf, hlisted⟩
  · left
    obtain ⟨⟨r, s'⟩, htrigger, hok⟩ := bind_eq_ok.mp hok
    obtain ⟨all, -, hok⟩ := bind_eq_ok.mp hok
    obtain ⟨-, rfl⟩ := Prod.mk.inj (Except.ok.inj hok)
    exact ⟨tasks, r, s', htrigger, hlisted⟩
  · right
    refine ⟨f, ?_, hlisted⟩
    rintro rfl
    rcases bind_eq_error.mp hf with htrigger | ⟨x, -, hf⟩
    · exact trigger_ne_noMatch _ _ _ htrigger
    · rcases bind_eq_error.mp hf with hread | ⟨all, -, hf⟩
      · obtain ⟨cause, -, hcause⟩ := mapError_eq_error.mp hread
        exact absurd hcause nofun
      · exact absurd hf nofun

/-- A count answers with the number of tasks that a listing would show. -/
lemma run_count_of_listed {x : Except Fault (List Task)} {t' : Tracker}
    (h : t.listed draw = (x, t')) :
    t.run draw .count = (x.map fun tasks => .number tasks.length, t') := by
  unfold run count
  dsimp only
  rw [h]
  cases x <;> rfl

/-- A listing sorts what it finds, and fails where it finds nothing. -/
lemma run_list_of_listed {x : Except Fault (List Task)} {t' : Tracker}
    (h : t.listed draw = (x, t')) (sort : SortKey) :
    t.run draw (.list sort) =
      (x >>= fun tasks =>
        if tasks = [] then .error .noMatch else .ok (.tasks (Listing.sort sort tasks)), t') := by
  unfold run list
  dsimp only
  rw [h]
  rcases x with f | _ | ⟨task, tasks⟩ <;> rfl

/-- A command that makes a pass ends after it, or fails and leaves the store alone. -/
lemma run_of_isPass {command : Command} (h : command.isPass = true) :
    (∃ r, t.store.trigger draw t.config.recurrence t.now = .ok (r, (t.run draw command).2.store)) ∨
      ∃ f, f ≠ .noMatch ∧ t.run draw command = (.error f, t) := by
  cases command with
  | list sort =>
    rcases t.listed_cases draw with ⟨tasks, r, s, htrigger, hlisted⟩ | ⟨f, hf, hlisted⟩
    · rw [run_list_of_listed hlisted sort]
      exact Or.inl ⟨r, htrigger⟩
    · exact Or.inr ⟨f, hf, run_list_of_listed hlisted sort⟩
  | count =>
    rcases t.listed_cases draw with ⟨tasks, r, s, htrigger, hlisted⟩ | ⟨f, hf, hlisted⟩
    · rw [run_count_of_listed hlisted]
      exact Or.inl ⟨r, htrigger⟩
    · exact Or.inr ⟨f, hf, run_count_of_listed hlisted⟩
  | gc =>
    unfold run
    dsimp only
    rcases transact_cases (t.gc draw) rfl with ⟨r, s, hpass, hgc⟩ | ⟨f, hpass, hgc⟩
    · rw [hgc]
      exact Or.inl ⟨r, hpass⟩
    · right
      rw [hgc]
      refine ⟨f, ?_, rfl⟩
      rintro rfl
      exact trigger_ne_noMatch _ _ _ hpass
  | _ => exact absurd h Bool.false_ne_true

/-! ### Proposals -/

/-- What is addressed was found after a pass, and the tasks of its series were read. -/
lemma address_eq_ok {token : String} {s : Store} {on : Task} {candidates : List Task} :
    t.address draw token = .ok (s, on, candidates) ↔
      ∃ r, t.store.trigger draw t.config.recurrence t.now = .ok (r, s) ∧
        s.find token = .ok on ∧ siblings s on = .ok candidates := by
  unfold address
  constructor
  · intro h
    obtain ⟨⟨r, s'⟩, htrigger, h⟩ := bind_eq_ok.mp h
    obtain ⟨on', hfind, h⟩ := bind_eq_ok.mp h
    obtain ⟨candidates', hsiblings, h⟩ := bind_eq_ok.mp h
    obtain ⟨rfl, hrest⟩ := Prod.mk.inj (Except.ok.inj h)
    obtain ⟨rfl, rfl⟩ := Prod.mk.inj hrest
    exact ⟨r, htrigger, hfind, hsiblings⟩
  · rintro ⟨r, htrigger, hfind, hsiblings⟩
    refine bind_eq_ok.mpr ⟨(r, s), htrigger, ?_⟩
    refine bind_eq_ok.mpr ⟨on, hfind, ?_⟩
    exact bind_eq_ok.mpr ⟨candidates, hsiblings, rfl⟩

/-- The tasks of a series are its occurrences, all of them readable. -/
lemma mem_of_siblings_eq_ok {s : Store} (h : s.Sound) {on : Task} {candidates : List Task}
    (hok : siblings s on = .ok candidates) {u : Task} (hu : u ∈ candidates) :
    u ∈ s.tasks ∧ u.Readable := by
  unfold siblings at hok
  split at hok
  · rw [← Except.ok.inj hok] at hu
    exact absurd hu List.not_mem_nil
  · obtain ⟨hperm, hreadable⟩ := (mapError_eq_ok.mp hok ▸ Store.ends_childrenOf h _).of_ok
    exact ⟨(mem_childrenIn.mp (hperm.mem_iff.mp hu)).1, hreadable u hu⟩

/-- A proposal that fails leaves the store alone, and one that does not is written back. -/
lemma propagate_cases (t : Tracker) (draw : Nat → TaskId) (token : String) (m : Mutation) :
    (∃ f, (t.propagate draw token m).1 = .error f ∧
        (t.propagate draw token m).2.store = t.store) ∨
      ∃ s on candidates outcome c s', t.address draw token = .ok (s, on, candidates) ∧
        t.coordinator.propose m on candidates t.now = (.ok outcome, c) ∧
        writeBack s outcome.changed = .ok s' ∧
        t.propagate draw token m = (.ok outcome, { t.afterQuestions c with store := s' }) := by
  have hkept : ∀ c, (t.afterQuestions c).store = t.store := by
    intro c
    unfold afterQuestions
    split_ifs <;> rfl
  unfold propagate
  cases haddress : t.address draw token with
  | error f => exact Or.inl ⟨f, rfl, rfl⟩
  | ok x =>
    obtain ⟨s, on, candidates⟩ := x
    dsimp only
    cases hpropose : t.coordinator.propose m on candidates t.now with
    | mk result c =>
      cases result with
      | error f => exact Or.inl ⟨f, rfl, hkept c⟩
      | ok outcome =>
        cases hwrite : writeBack s outcome.changed with
        | error f =>
          left
          refine ⟨f, ?_, ?_⟩ <;> simp only [hwrite, hkept c]
        | ok s' =>
          right
          refine ⟨s, on, candidates, outcome, c, s', rfl, hpropose, hwrite, ?_⟩
          simp only [hwrite]

/-- Tasks were written back when they could be updated and everything is readable afterwards. -/
lemma writeBack_eq_ok {s s' : Store} {changed : List Task} :
    writeBack s changed = .ok s' ↔ s.updateAll changed = .ok s' ∧ s'.check = .ok () := by
  unfold writeBack
  constructor
  · intro h
    obtain ⟨next, hupdate, h⟩ := bind_eq_ok.mp h
    obtain ⟨⟨⟩, hcheck, h⟩ := bind_eq_ok.mp h
    obtain rfl := Except.ok.inj h
    exact ⟨mapError_eq_ok.mp hupdate, hcheck⟩
  · rintro ⟨hupdate, hcheck⟩
    exact bind_eq_ok.mpr ⟨s', mapError_eq_ok.mpr hupdate, bind_eq_ok.mpr ⟨(), hcheck, rfl⟩⟩

/-- A command with a mutation proposes it. -/
lemma run_of_mutation {command : Command} {token : String} {m : Mutation}
    (h : command.mutation? t.now = some (token, m)) :
    t.run draw command = (t.propagate draw token m).map (Except.map .outcome) id := by
  cases command with
  | modify token' f =>
    unfold Command.mutation? at h
    unfold run modify
    dsimp only at h ⊢
    cases hedit : f.toEdit t.now with
    | error fault =>
      rw [hedit] at h
      exact absurd h nofun
    | ok e =>
      rw [hedit] at h
      dsimp only at h ⊢
      split_ifs at h ⊢
      obtain ⟨rfl, rfl⟩ := Prod.mk.inj (Option.some.inj h)
      rfl
  | delete token' =>
    obtain ⟨rfl, rfl⟩ := Prod.mk.inj (Option.some.inj h)
    rfl
  | _ => exact absurd h nofun

end Tracker

/-! ## Calls -/

/-- A command that is given to a tracker, with the ids that are drawn for it. -/
structure Call where
  tracker : Tracker
  draw : Nat → TaskId
  command : Command

namespace Call

/-- What the tracker answers. -/
def reply (c : Call) : Except Fault Reply := (c.tracker.run c.draw c.command).1

/-- The store after the command. -/
def store (c : Call) : Store := (c.tracker.run c.draw c.command).2.store

/-- What a command has done to the store. -/
inductive Effect (c : Call) : Prop
  /-- Nothing, and no proposal has ended. -/
  | unchanged (hstore : c.store = c.tracker.store)
    (hreply : ∀ outcome, c.reply ≠ .ok (.outcome outcome))
  /-- A task was entered under a new id. -/
  | entered {description : String} {fields : Fields} {task : Task}
    (hcommand : c.command = .add description fields)
    (hnew : fields.newTask (c.draw c.tracker.store.issued) description c.tracker.now = .ok task)
    (hid : task.id ∉ c.tracker.store.tasks.map Task.id)
    (hstore : c.store = c.tracker.store.added [task])
  /-- A pass was made. -/
  | passed {r : TriggerReport} (hcommand : c.command.isPass = true)
    (hpass : c.tracker.store.trigger c.draw c.tracker.config.recurrence c.tracker.now =
      .ok (r, c.store))
  /-- A pass was made, and then a task and some later ones of its series were changed. -/
  | mutated {token : String} {m : Mutation} {r : TriggerReport} {s : Store} {on : Task}
    {later : List Task} {state : ProposalState}
    (hcommand : c.command.mutation? c.tracker.now = some (token, m))
    (hpass : c.tracker.store.trigger c.draw c.tracker.config.recurrence c.tracker.now = .ok (r, s))
    (hfind : s.find token = .ok on)
    (hlater : ∀ u ∈ later, u ∈ s.tasks ∧ on.isLaterSibling u = true)
    (hreply : c.reply = .ok (.outcome ⟨state, (on :: later).map (m.apply c.tracker.now)⟩))
    (hstore : c.store = s.changed (on :: later) (m.apply c.tracker.now))
  /-- A task was completed. -/
  | completed {token : String} {task : Task} (hcommand : c.command = .done token)
    (hfind : c.tracker.store.find token = .ok task)
    (hstore : c.store = c.tracker.store.changed [task] (Tracker.complete c.tracker.now))

variable {c : Call}

section
variable {α : Type} {x : Except Fault α × Tracker} (answer : α → Reply)
  (h : c.tracker.run c.draw c.command = x.map (Except.map answer) id)
include h

lemma store_of_run : c.store = x.2.store := by
  unfold store
  rw [h]
  rfl

/-- A command whose answers are no outcomes ends no proposal. -/
lemma reply_ne_outcome (hanswer : ∀ a outcome, answer a ≠ .outcome outcome) (outcome : Outcome) :
    c.reply ≠ .ok (.outcome outcome) := by
  unfold reply
  rw [h, Prod.map_fst]
  intro hreply
  obtain ⟨a, -, ha⟩ := map_eq_ok.mp hreply
  exact hanswer a outcome ha

end

lemma reply_ne_outcome_of_error {f : Fault} (h : c.reply = .error f) (outcome : Outcome) :
    c.reply ≠ .ok (.outcome outcome) := by
  rw [h]
  exact nofun

/-- A call that enters a task has stored it under a new id, or has failed. -/
lemma add_cases {description : String} {fields : Fields} (h : c.tracker.store.WellFormed)
    (hcommand : c.command = .add description fields) :
    (∃ task, fields.newTask (c.draw c.tracker.store.issued) description c.tracker.now = .ok task ∧
        task.id ∉ c.tracker.store.tasks.map Task.id ∧ c.reply = .ok (.task task) ∧
        c.store = c.tracker.store.added [task]) ∨
      (∃ fault, c.reply = .error fault) ∧ c.store = c.tracker.store := by
  have hrun : c.tracker.run c.draw c.command =
      (c.tracker.add c.draw description fields).map (Except.map .task) id := by
    rw [hcommand, Tracker.run]
  unfold reply store
  rw [hrun]
  rcases Tracker.add_cases h.structured.ids c.draw description fields with
    ⟨task, hnew, hid, hadd⟩ | ⟨fault, hadd⟩
  · rw [hadd]
    exact Or.inl ⟨task, hnew, hid, rfl, rfl⟩
  · rw [hadd]
    exact Or.inr ⟨⟨fault, rfl⟩, rfl⟩

/-- An addition that succeeds adds the task; one that fails changes nothing. -/
lemma effect_of_add {description : String} {fields : Fields} (h : c.tracker.store.WellFormed)
    (hcommand : c.command = .add description fields) : Effect c := by
  rcases add_cases h hcommand with ⟨task, hnew, hid, -, hstore⟩ | ⟨⟨fault, hreply⟩, hstore⟩
  · exact .entered hcommand hnew hid hstore
  · exact .unchanged hstore (reply_ne_outcome_of_error hreply)

/-- A command with a pass has the effect of the pass. -/
lemma effect_of_isPass (hcommand : c.command.isPass = true) : Effect c := by
  rcases @Tracker.run_of_isPass c.tracker c.draw _ hcommand with ⟨r, hpass⟩ | ⟨f, -, hrun⟩
  · exact .passed hcommand hpass
  · refine .unchanged ?_ (reply_ne_outcome_of_error (congrArg Prod.fst hrun))
    unfold store
    rw [hrun]

/-- An edit or a deletion changes the task and the later ones that it is carried on to, or nothing. -/
lemma effect_of_mutation {token : String} {m : Mutation} (h : c.tracker.store.WellFormed)
    (hcommand : c.command.mutation? c.tracker.now = some (token, m)) : Effect c := by
  have hrun : c.tracker.run c.draw c.command = _ := Tracker.run_of_mutation hcommand
  rcases c.tracker.propagate_cases c.draw token m with ⟨f, herror, hstore⟩ |
    ⟨s, on, candidates, outcome, c', s', haddress, hpropose, hwrite, hpropagate⟩
  · have hreply : c.reply = .error f := by
      unfold reply
      rw [hrun, Prod.map_fst, herror]
      rfl
    exact .unchanged ((store_of_run .outcome hrun).trans hstore) (reply_ne_outcome_of_error hreply)
  · rw [hpropagate] at hrun
    obtain ⟨r, hpass, hfind, hsiblings⟩ := Tracker.address_eq_ok.mp haddress
    obtain ⟨later, hlater, hchanged⟩ := Coordinator.changed_of_propose hpropose
    have hs := (Store.passed_of_trigger h hpass).wellFormed h
    -- everything that is changed is stored, so that it is changed where it stands
    have hmem : ∀ u ∈ later, u ∈ s.tasks ∧ on.isLaterSibling u = true := by
      intro u hu
      obtain ⟨hcandidate, hsibling⟩ := List.mem_filter.mp (hlater u hu)
      exact ⟨(Tracker.mem_of_siblings_eq_ok hs.sound hsiblings hcandidate).1, hsibling⟩
    have hchosen : ∀ u ∈ on :: later, u ∈ s.tasks := by
      rw [List.forall_mem_cons]
      exact ⟨(hfind ▸ Store.ends_find hs.sound token).of_ok.1, fun u hu => (hmem u hu).1⟩
    obtain ⟨hupdate, -⟩ := Tracker.writeBack_eq_ok.mp hwrite
    rw [hchanged] at hupdate
    have heq := Store.eq_changed_of_updateAll hs hchosen (fun u => (keeps_apply m _ u).id) hupdate
    have hreply : c.reply =
        .ok (.outcome ⟨outcome.state, (on :: later).map (m.apply c.tracker.now)⟩) := by
      unfold reply
      rw [hrun, ← hchanged]
      rfl
    refine .mutated hcommand hpass hfind hmem hreply ?_
    unfold store
    rw [hrun, ← heq]
    rfl

/-- Completing a task changes that task alone. -/
lemma effect_of_done {token : String} (h : c.tracker.store.WellFormed)
    (hcommand : c.command = .done token) : Effect c := by
  have hrun : c.tracker.run c.draw c.command =
      (c.tracker.done token).map (Except.map .task) id := by
    rw [hcommand, Tracker.run]
  have hstore := store_of_run .task hrun
  rcases Tracker.transact_cases (c.tracker.done token) rfl with
    ⟨task, s, hok, hdone⟩ | ⟨f, -, hdone⟩
  · rw [hdone] at hstore
    obtain ⟨old, hfind, hok⟩ := bind_eq_ok.mp hok
    obtain ⟨next, hupdate, hok⟩ := bind_eq_ok.mp hok
    obtain ⟨-, rfl⟩ := Prod.mk.inj (Except.ok.inj hok)
    have hchosen : ∀ u ∈ [old], u ∈ c.tracker.store.tasks := by
      intro u hu
      rw [List.mem_singleton.mp hu]
      exact (hfind ▸ Store.ends_find h.sound token).of_ok.1
    refine .completed hcommand hfind (hstore.trans ?_)
    have hid : ∀ u, (Tracker.complete c.tracker.now u).id = u.id := fun _ => rfl
    exact Store.eq_changed_of_updateAll h hchosen hid (mapError_eq_ok.mp hupdate)
  · rw [hdone] at hstore
    exact .unchanged hstore (reply_ne_outcome .task hrun fun _ _ => nofun)

/-- Every command on a well-formed store has one of the effects, whatever ids are drawn for it. -/
lemma effect (h : c.tracker.store.WellFormed) : Effect c := by
  cases hcommand : c.command with
  | add description fields => exact effect_of_add h hcommand
  | list sort => exact effect_of_isPass (by rw [hcommand]; rfl)
  | count => exact effect_of_isPass (by rw [hcommand]; rfl)
  | gc => exact effect_of_isPass (by rw [hcommand]; rfl)
  | modify token f =>
    cases hmutation : c.command.mutation? c.tracker.now with
    | some x => exact effect_of_mutation h hmutation
    | none =>
      -- the fields do not read, or change nothing
      rw [hcommand] at hmutation
      have hrun : ∃ fault, c.tracker.run c.draw c.command = (.error fault, c.tracker) := by
        rw [hcommand]
        unfold Command.mutation? at hmutation
        unfold Tracker.run Tracker.modify
        dsimp only at hmutation ⊢
        cases hedit : f.toEdit c.tracker.now with
        | error fault => exact ⟨fault, rfl⟩
        | ok e =>
          rw [hedit] at hmutation
          dsimp only at hmutation ⊢
          split_ifs at hmutation ⊢
          exact ⟨.nothingToModify, rfl⟩
      obtain ⟨fault, hrun⟩ := hrun
      refine .unchanged ?_ (reply_ne_outcome_of_error (congrArg Prod.fst hrun))
      unfold store
      rw [hrun]
  | delete token => exact effect_of_mutation h (by rw [hcommand]; rfl)
  | done token => exact effect_of_done h hcommand
  | get token =>
    have hrun : c.tracker.run c.draw c.command =
        (c.tracker.get token, c.tracker).map (Except.map .task) id := by
      rw [hcommand]
      rfl
    exact .unchanged (store_of_run .task hrun) (reply_ne_outcome .task hrun fun _ _ => nofun)
  | diag =>
    have hrun : c.tracker.run c.draw c.command =
        (c.tracker.diag, c.tracker).map (Except.map .report) id := by
      rw [hcommand]
      rfl
    exact .unchanged (store_of_run .report hrun) (reply_ne_outcome .report hrun fun _ _ => nofun)

end Call

end TaskSeries
