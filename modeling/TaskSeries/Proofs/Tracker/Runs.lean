import TaskSeries.Proofs.Tracker.Calls

/-!
# Stores that calls lead to

A run is a sequence of calls, each with its own configuration, instant and answers to questions. What
every allowed call keeps holds of all stores that runs of allowed calls lead to (`ReachableBy`); no
assumption on the ids that are drawn is needed. Here: all of these stores are well-formed, and a call
continues every series as long as it gives no occurrence another due date (`Call.continues`).
-/

namespace TaskSeries

open TaskSeries.Calendar TaskSeries.Series

namespace Call

variable {c : Call}

/-! ## What every call keeps -/

/-- The effect of a call leaves a well-formed store. -/
lemma Effect.wellFormed (h : Effect c) (hs : c.tracker.store.WellFormed) : c.store.WellFormed := by
  cases h with
  | unchanged hstore _ =>
    rw [hstore]
    exact hs
  | entered _ hnew hid hstore =>
    obtain ⟨-, hparent, hmask⟩ := (hnew ▸ Fields.ends_newTask _ _ _ _).of_ok
    rw [hstore]
    exact hs.added (hs.structured.enter hid hparent hmask)
  | passed _ hpass => exact (Store.passed_of_trigger hs hpass).wellFormed hs
  | mutated _ hpass _ _ _ hstore =>
    rw [hstore]
    exact ((Store.passed_of_trigger hs hpass).wellFormed hs).changed _ (keeps_apply _ _)
  | completed _ _ hstore =>
    rw [hstore]
    exact hs.changed _ fun _ => ⟨rfl, rfl, rfl, fun hrecur => hrecur⟩

/-- No command locks the store or unlocks it. -/
lemma Effect.readOnly_eq (h : Effect c) (hs : c.tracker.store.WellFormed) :
    c.store.readOnly = c.tracker.store.readOnly := by
  cases h with
  | unchanged hstore _ => rw [hstore]
  | entered _ _ _ hstore =>
    rw [hstore]
    rfl
  | passed _ hpass => exact Store.readOnly_of_trigger hs hpass
  | mutated _ hpass _ _ _ hstore =>
    rw [hstore]
    exact (Store.readOnly_of_trigger hs hpass :)
  | completed _ _ hstore =>
    rw [hstore]
    rfl

/-! ## Calls that move no occurrence -/

/-- The call sets or clears the due date of an occurrence. -/
def Redates (c : Call) : Prop :=
  ∃ token fields outcome, c.command = .modify token fields ∧ fields.due.isSome = true ∧
    c.reply = .ok (.outcome outcome) ∧ ∃ t ∈ outcome.changed, t.parent.isSome = true

/-- No command but an edit moves an occurrence to another date. -/
lemma not_redates (h : ∀ token fields, c.command ≠ .modify token fields) : ¬ c.Redates := by
  rintro ⟨token, fields, -, hcommand, -⟩
  exact h token fields hcommand

/-- A mutation changes the due date of a task only if a due date was given. -/
lemma due_apply_of_mutation? {command : Command} {token : String} {m : Mutation} {now : Instant}
    (h : command.mutation? now = some (token, m)) :
    (∃ fields, command = .modify token fields ∧ fields.due.isSome = true) ∨
      ∀ t, (m.apply now t).due = t.due := by
  cases m with
  | edit e =>
    obtain ⟨fields, rfl, hedit⟩ := Command.modify_of_mutation? h
    cases hdue : fields.due with
    | some date => exact Or.inl ⟨fields, rfl, by rw [hdue]; rfl⟩
    | none =>
      right
      obtain ⟨recur, -, hedit⟩ := bind_eq_ok.mp hedit
      obtain ⟨due, hread, hedit⟩ := bind_eq_ok.mp hedit
      obtain ⟨expiry, -, hedit⟩ := bind_eq_ok.mp hedit
      rw [hdue] at hread
      rw [← Except.ok.inj hedit, ← Except.ok.inj hread]
      exact fun t => rfl
  | delete => exact Or.inr fun t => rfl

/-- A mutation makes no task pending. -/
lemma pending_of_apply {m : Mutation} {now : Instant} {t : Task}
    (h : (m.apply now t).status = .pending) : t.status = .pending := by
  cases m with
  | edit e => exact h
  | delete => exact absurd h nofun

/-- A call that moves no occurrence continues every series. -/
lemma continues (h : c.tracker.store.WellFormed) (hdates : ¬ c.Redates) (id : TaskId) :
    Continues c.tracker.store.tasks id c.tracker.now c.tracker.config.recurrence.horizon
      (c.store.children id) := by
  have hself := continues_self c.tracker.store.tasks id c.tracker.now
    c.tracker.config.recurrence.horizon
  cases effect h with
  | unchanged hstore _ =>
    rw [hstore]
    exact hself
  | @entered _ _ task _ hnew _ hstore =>
    -- what is entered is no occurrence
    obtain ⟨-, hparent, -⟩ := (hnew ▸ Fields.ends_newTask _ _ _ _).of_ok
    have hnone : childrenIn [task] id = [] := childrenIn_eq_nil fun t ht => by
      rw [List.mem_singleton.mp ht, hparent]
      exact nofun
    rw [hstore, Store.children_added, hnone, List.map_nil, List.append_nil]
    exact hself
  | passed _ hpass => exact (Store.passed_of_trigger h hpass).continues h id
  | @mutated token m r s on later state hcommand hpass hfind hlater hreply hstore =>
    -- the pass continues the series, and the change keeps the dates of what it left
    have hpassed := Store.passed_of_trigger h hpass
    have hs := (hpassed.wellFormed h).sound
    rw [hstore, Store.children_changed hs]
    refine (hpassed.continues h id).map ?_
    intro t ht
    obtain ⟨hmem, hparent⟩ := mem_childrenIn.mp ht
    by_cases hchosen : t ∈ on :: later
    · rw [if_pos hchosen]
      refine keepsDate_changedBy (hs.stored_eq hmem) ?_ pending_of_apply
      rcases due_apply_of_mutation? hcommand with ⟨fields, hmodify, hdue⟩ | hsame
      · -- the due date of an occurrence was changed
        refine absurd ⟨token, fields, _, hmodify, hdue, hreply, m.apply c.tracker.now t, ?_, ?_⟩ hdates
        · exact List.mem_map_of_mem hchosen
        · rw [(keeps_apply m _ t).parent, hparent]
          rfl
      · exact hsame t
    · rw [if_neg hchosen]
      exact KeepsDate.refl t
  | completed _ _ hstore =>
    rw [hstore, Store.children_changed h.sound]
    refine hself.map ?_
    intro t ht
    split_ifs
    · have hmem := (mem_childrenIn.mp ht).1
      exact keepsDate_changedBy (h.sound.stored_eq hmem) rfl fun hpending => absurd hpending nofun
    · exact KeepsDate.refl t

end Call

/-! ## Runs -/

/-- The stores that allowed calls lead to, one after another, from the empty store. Between two calls
everything but the store may change. -/
inductive ReachableBy (allowed : Call → Prop) : Store → Prop
  | empty : ReachableBy allowed {}
  | call {c : Call} (h : ReachableBy allowed c.tracker.store) (hallowed : allowed c) :
    ReachableBy allowed c.store

namespace ReachableBy

variable {allowed : Call → Prop} {s : Store}

/-- Stores that runs of any kind reach are well-formed. -/
lemma wellFormed (h : ReachableBy allowed s) : s.WellFormed := by
  induction h with
  | empty => exact Store.wellFormed_empty
  | call _ _ ih => exact (Call.effect ih).wellFormed ih

/-- The stores that runs lead to may be written. -/
lemma readOnly_eq (h : ReachableBy allowed s) : s.readOnly = false := by
  induction h with
  | empty => rfl
  | call h _ ih => exact ((Call.effect h.wellFormed).readOnly_eq h.wellFormed).trans ih

lemma mono {allowed' : Call → Prop} (h : ReachableBy allowed s)
    (hallowed : ∀ c, allowed c → allowed' c) : ReachableBy allowed' s := by
  induction h with
  | empty => exact .empty
  | call _ hc ih => exact .call ih (hallowed _ hc)

lemma of_reachable (h : Tracker.Reachable s) : ReachableBy (fun _ => True) s := by
  induction h with
  | empty => exact .empty
  | @run t draw command _ _ ih => exact @call _ ⟨t, draw, command⟩ ih trivial

/-- A command that leads from one tracker to another reaches the store of the second one. -/
lemma of_run {t u : Tracker} {draw : Nat → TaskId} {command : Command}
    (h : ReachableBy allowed t.store) (hallowed : allowed ⟨t, draw, command⟩)
    (hrun : (t.run draw command).2 = u) : ReachableBy allowed u.store :=
  hrun ▸ @call allowed ⟨t, draw, command⟩ h hallowed

end ReachableBy

end TaskSeries
