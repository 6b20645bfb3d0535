import TaskSeries.Proofs.Tracker.Trigger
import TaskSeries.Tracker.Command

/-!
# Commands on a well-formed store

Every command leaves a well-formed store well-formed, whether it succeeds or not, and no fault of a
command says that a series is broken (`Tracker.endsWell_run`). A command needs fresh ids for all that
it could make.
-/

namespace TaskSeries

open TaskSeries.Calendar TaskSeries.Series

/-! ## Reading the fields of a command -/

/-- A date that is not understood breaks no series. -/
lemma DateExpr.ends_resolve (expr : String) (now : Instant) :
    Ends (fun _ => True) (fun f => f.breaksSeries = false) (DateExpr.resolve expr now) := by
  unfold DateExpr.resolve DateExpr.resolveTrimmed
  dsimp only
  repeat' split
  all_goals first | exact .ok trivial | exact .error rfl

namespace Fields

lemma ends_optional {α : Type} {read : String → Except Fault α}
    (h : ∀ s, Ends (fun _ => True) (fun f => f.breaksSeries = false) (read s)) (o : Option String) :
    Ends (fun _ => True) (fun f => f.breaksSeries = false) (optional read o) := by
  cases o with
  | none => exact .ok trivial
  | some s => exact (h s).map

lemma ends_period (s : String) :
    Ends (fun _ => True) (fun f => f.breaksSeries = false) (period s) := by
  unfold period
  cases Period.parse s with
  | ok p => exact .ok trivial
  | error cause => exact .error rfl

lemma ends_dateEdit (now : Instant) (s : String) :
    Ends (fun _ => True) (fun f => f.breaksSeries = false) (dateEdit now s) := by
  unfold dateEdit
  split_ifs
  · exact .ok trivial
  · exact (DateExpr.ends_resolve _ now).map

/-- A new task has the id that was drawn for it and is no occurrence. -/
lemma ends_newTask (id : TaskId) (description : String) (f : Fields) (now : Instant) :
    Ends (fun task => task.id = id ∧ task.parent = none ∧ task.mask = none)
      (fun f => f.breaksSeries = false) (f.newTask id description now) := by
  unfold newTask
  cases filled? description with
  | none => exact .error rfl
  | some description =>
    dsimp only
    refine (ends_optional ends_period f.recur).bind fun recur _ => ?_
    refine (ends_optional (DateExpr.ends_resolve · now) f.due).bind fun due _ => ?_
    refine (ends_optional (DateExpr.ends_resolve · now) f.expiry).bind fun expiry _ => ?_
    split_ifs
    · exact .error rfl
    · exact .ok ⟨rfl, rfl, rfl⟩

lemma ends_toEdit (f : Fields) (now : Instant) :
    Ends (fun _ => True) (fun f => f.breaksSeries = false) (f.toEdit now) := by
  unfold toEdit
  refine (ends_optional ends_period f.recur).bind fun recur _ => ?_
  refine (ends_optional (ends_dateEdit now) f.due).bind fun due _ => ?_
  refine (ends_optional (ends_dateEdit now) f.expiry).bind fun expiry _ => ?_
  exact .ok trivial

end Fields

/-! ## Proposals -/

/-- What a proposal changes are the addressed task and candidates, and nothing but the mutation is done
to them. -/
lemma Coordinator.ends_propose (c : Coordinator) (m : Mutation) (on : Task) (candidates : List Task)
    (now : Instant) :
    Ends (fun outcome => ∀ t ∈ outcome.changed, ∃ old ∈ on :: candidates, t = m.apply now old)
      (fun f => f.breaksSeries = false) (c.propose m on candidates now).1 := by
  have hone : ∀ t ∈ [m.apply now on], ∃ old ∈ on :: candidates, t = m.apply now old := by
    intro t ht
    exact ⟨on, List.mem_cons_self, List.mem_singleton.mp ht⟩
  unfold Coordinator.propose
  dsimp only
  split
  · exact .ok hone
  · rename_i later _
    split
    · refine .ok fun t ht => ?_
      rcases List.mem_cons.mp ht with rfl | ht
      · exact ⟨on, List.mem_cons_self, rfl⟩
      · obtain ⟨old, hold, rfl⟩ := List.mem_map.mp ht
        exact ⟨old, List.mem_cons_of_mem on (List.mem_filter.mp hold).1, rfl⟩
    · exact .ok hone
    · exact .error rfl

namespace Tracker

variable {t : Tracker} {draw : Nat → TaskId}

/-- The command has left a well-formed store and does not report a broken series. -/
def EndsWell {α : Type} (x : Except Fault α × Tracker) : Prop :=
  x.2.store.WellFormed ∧ ∀ f, x.1 = .error f → f.breaksSeries = false

/-- A fault that breaks no series ends a command well. -/
lemma endsWell_error {α : Type} {f : Fault} (h : t.store.WellFormed) (hf : f.breaksSeries = false) :
    EndsWell ((.error f, t) : Except Fault α × Tracker) := by
  refine ⟨h, fun f' hf' => ?_⟩
  rw [← Except.error.inj hf']
  exact hf

/-- A command that only reads ends well. -/
lemma endsWell_of_ends {α : Type} {x : Except Fault α} (h : t.store.WellFormed)
    (hx : Ends (fun _ => True) (fun f => f.breaksSeries = false) x) : EndsWell (x, t) := by
  refine ⟨h, fun f hf => ?_⟩
  rw [show x = .error f from hf] at hx
  exact hx.of_error

lemma EndsWell.map {α β : Type} {x : Except Fault α × Tracker} (h : EndsWell x) (g : α → β) :
    EndsWell (x.map (Except.map g) id) := by
  refine ⟨h.1, fun f hf => h.2 f ?_⟩
  obtain ⟨result, t⟩ := x
  cases result with
  | ok a => exact absurd hf nofun
  | error f' => exact congrArg Except.error (Except.error.inj hf)

/-- A change that succeeds is taken over. -/
lemma transact_eq_ok {α : Type} {change : Store → Except Fault (α × Store)} {a : α} {s : Store}
    (h : change t.store = .ok (a, s)) : t.transact change = (.ok a, { t with store := s }) := by
  unfold transact
  rw [h]

/-- A change of the store succeeds and is kept, or fails and leaves the tracker as it was. -/
lemma transact_cases {α : Type} {change : Store → Except Fault (α × Store)}
    (x : Except Fault α × Tracker) (h : t.transact change = x) :
    (∃ a s, change t.store = .ok (a, s) ∧ x = (.ok a, { t with store := s })) ∨
      ∃ f, change t.store = .error f ∧ x = (.error f, t) := by
  rw [← h]
  unfold transact
  cases change t.store with
  | ok y => exact Or.inl ⟨y.1, y.2, rfl, rfl⟩
  | error f => exact Or.inr ⟨f, rfl, rfl⟩

/-- A pass that succeeds is all that the command for it does. -/
lemma run_gc {r : TriggerReport} {s : Store}
    (h : t.store.trigger draw t.config.recurrence t.now = .ok (r, s)) :
    t.run draw .gc = (.ok (.pass r), { t with store := s }) := by
  unfold run gc
  rw [transact_eq_ok h]
  rfl

/-- A change that leaves a well-formed store ends well, and one that fails is rolled back. -/
lemma endsWell_transact {α : Type} {change : Store → Except Fault (α × Store)}
    (h : t.store.WellFormed)
    (hchange : Ends (fun x => x.2.WellFormed) (fun f => f.breaksSeries = false) (change t.store)) :
    EndsWell (t.transact change) := by
  rcases transact_cases (t.transact change) rfl with ⟨a, s, hok, htransact⟩ | ⟨f, hf, htransact⟩
  · rw [hok] at hchange
    rw [htransact]
    exact ⟨hchange.of_ok, nofun⟩
  · rw [hf] at hchange
    rw [htransact]
    exact endsWell_error h hchange.of_error

/-! ## The commands one by one -/

lemma endsWell_add (h : t.store.WellFormed) (hfresh : t.store.Fresh draw 1) (description : String)
    (f : Fields) : EndsWell (t.add draw description f) := by
  refine endsWell_transact h ?_
  refine (f.ends_newTask _ _ _).bind fun task ⟨hid, hparent, hmask⟩ => ?_
  have hmade : Structured (t.store.tasks ++ [task]) := h.enter hfresh hid hparent hmask
  have hinsert : Ends (fun s => s.WellFormed) (fun f => f.breaksSeries = false)
      ((t.store.insertDrawn [task]).mapError Fault.store) := by
    refine Ends.mapError ((h.ends_insertDrawn hmade fun u hu p hp => ?_).mono ?_)
    · rw [List.mem_singleton.mp hu, hparent] at hp
      exact absurd hp nofun
    · rintro s rfl
      exact h.added hmade
  exact hinsert.bind fun s hs => .ok hs

/-- A task that the fields describe is stored behind the others. -/
lemma add_eq_ok {description : String} {f : Fields} {task : Task} (h : t.store.WellFormed)
    (hwrite : t.store.readOnly = false) (hfresh : t.store.Fresh draw 1)
    (hnew : f.newTask (draw t.store.issued) description t.now = .ok task) :
    t.add draw description f = (.ok task, { t with store := t.store.added [task] }) := by
  obtain ⟨hid, hparent, hmask⟩ :=
    (hnew ▸ f.ends_newTask (draw t.store.issued) description t.now).of_ok
  have hmade : Structured (t.store.tasks ++ [task]) := h.enter hfresh hid hparent hmask
  have hinsert : t.store.insertDrawn [task] = .ok (t.store.added [task]) := by
    rw [Store.insertDrawn_eq h.sound hmade.ids hmade.places, Store.permit_eq_ok hwrite]
    · rfl
    · intro u hu p hp
      rw [List.mem_singleton.mp hu, hparent] at hp
      exact absurd hp nofun
  refine transact_eq_ok (bind_eq_ok.mpr ⟨task, hnew, ?_⟩)
  exact bind_eq_ok.mpr ⟨_, mapError_eq_ok.mpr hinsert, rfl⟩

/-- A task that was read and has a new id is added. -/
lemma run_add {description : String} {f : Fields} {task : Task} (h : t.store.WellFormed)
    (hwrite : t.store.readOnly = false) (hfresh : t.store.Fresh draw 1)
    (hnew : f.newTask (draw t.store.issued) description t.now = .ok task) :
    t.run draw (.add description f) = (.ok (.task task), { t with store := t.store.added [task] }) := by
  unfold run
  dsimp only
  rw [add_eq_ok h hwrite hfresh hnew]
  rfl

section
variable (h : t.store.WellFormed)
  (hfresh : t.store.Fresh draw (t.store.tasks.length * mostPerPass))
include h hfresh

lemma endsWell_gc : EndsWell (t.gc draw) :=
  endsWell_transact h (Store.ends_trigger h _ _ hfresh)

lemma endsWell_listed : EndsWell (t.listed draw) := by
  refine endsWell_transact h ((Store.ends_trigger h _ _ hfresh).bind fun x hx => ?_)
  have hall : Ends (fun _ => True) (fun f => f.breaksSeries = false)
      (x.2.all.mapError Fault.store) :=
    Ends.mapError (hx.ends_all.mono fun _ _ => trivial)
  exact hall.bind fun _ _ => .ok hx

lemma endsWell_list (sort : SortKey) : EndsWell (t.list draw sort) := by
  have hlisted := endsWell_listed h hfresh
  unfold list
  split
  · rename_i t' ht'
    rw [ht'] at hlisted
    exact endsWell_error hlisted.1 rfl
  · rename_i tasks t' _ ht'
    rw [ht'] at hlisted
    exact ⟨hlisted.1, nofun⟩
  · rename_i f t' ht'
    rw [ht'] at hlisted
    exact endsWell_error hlisted.1 (hlisted.2 f rfl)

lemma endsWell_count : EndsWell (t.count draw) := by
  have hlisted := endsWell_listed h hfresh
  unfold count
  split
  · rename_i tasks t' ht'
    rw [ht'] at hlisted
    exact ⟨hlisted.1, nofun⟩
  · rename_i f t' ht'
    rw [ht'] at hlisted
    exact endsWell_error hlisted.1 (hlisted.2 f rfl)

/-- The addressed task and the tasks of its series are stored after the pass. -/
lemma ends_address (token : String) :
    Ends (fun x => x.1.WellFormed ∧ ∀ u ∈ x.2.1 :: x.2.2, u ∈ x.1.tasks)
      (fun f => f.breaksSeries = false) (t.address draw token) := by
  refine (Store.ends_trigger h _ _ hfresh).bind fun x hx => ?_
  refine (Store.ends_find hx.sound token).bind fun on hon => ?_
  have hsiblings : Ends (fun l => ∀ u ∈ l, u ∈ x.2.tasks) (fun f => f.breaksSeries = false)
      (siblings x.2 on) := by
    unfold siblings
    split
    · exact .ok fun u hu => absurd hu List.not_mem_nil
    · rename_i parent _
      refine Ends.mapError ((hx.ends_childrenOf parent).mono fun l hl u hu => ?_)
      exact (mem_childrenIn.mp (hl.mem_iff.mp hu)).1
  refine hsiblings.bind fun candidates hcandidates => .ok ⟨hx, ?_⟩
  exact List.forall_mem_cons.mpr ⟨hon.1, hcandidates⟩

omit h hfresh in
/-- Tasks that keep the structure of series can be written back. -/
lemma ends_writeBack {s : Store} {changed : List Task} (hs : s.WellFormed)
    (hchanged : ∀ c ∈ changed, ∃ u ∈ s.tasks, Keeps u c) :
    Ends (fun s => s.WellFormed) (fun f => f.breaksSeries = false) (writeBack s changed) := by
  have hupdate : Ends (fun s => s.WellFormed) (fun f => f.breaksSeries = false)
      ((s.updateAll changed).mapError Fault.store) := Ends.mapError (hs.ends_updateAll hchanged)
  exact hupdate.bind fun next hnext => hnext.ends_check.bind fun _ _ => .ok hnext

/-- A change that is carried on to later occurrences ends well. -/
lemma endsWell_propagate (token : String) (m : Mutation) :
    EndsWell (t.propagate draw token m) := by
  have haddress := ends_address h hfresh token
  -- when nothing is written, the store is the one before the pass
  have hstore : ∀ c, (t.afterQuestions c).store.WellFormed := by
    intro c
    unfold afterQuestions
    split_ifs <;> exact h
  unfold propagate
  cases hx : t.address draw token with
  | error f =>
    rw [hx] at haddress
    exact endsWell_error h haddress.of_error
  | ok x =>
    rw [hx] at haddress
    obtain ⟨hs, hmem⟩ := haddress.of_ok
    have hpropose := t.coordinator.ends_propose m x.2.1 x.2.2 t.now
    dsimp only
    split
    · rename_i f hf
      rw [hf] at hpropose
      exact endsWell_error (hstore _) hpropose.of_error
    · rename_i outcome houtcome
      rw [houtcome] at hpropose
      have hwrite := ends_writeBack hs fun c hc => by
        obtain ⟨old, hold, rfl⟩ := hpropose.of_ok c hc
        exact ⟨old, hmem old hold, keeps_apply m t.now old⟩
      split
      · rename_i f hf
        rw [hf] at hwrite
        exact endsWell_error (hstore _) hwrite.of_error
      · rename_i s hs
        rw [hs] at hwrite
        exact ⟨hwrite.of_ok, nofun⟩

lemma endsWell_modify (token : String) (f : Fields) : EndsWell (t.modify draw token f) := by
  have hedit := f.ends_toEdit t.now
  unfold modify
  split
  · rename_i f' hf'
    rw [hf'] at hedit
    exact endsWell_error h hedit.of_error
  · split_ifs
    · exact endsWell_error h rfl
    · exact endsWell_propagate h hfresh token _

omit hfresh in
lemma endsWell_done (token : String) : EndsWell (t.done token) := by
  refine endsWell_transact h ((Store.ends_find h.sound token).bind fun task ⟨htask, _⟩ => ?_)
  have hupdate : Ends (fun s => s.WellFormed) (fun f => f.breaksSeries = false)
      ((t.store.update (complete t.now task)).mapError Fault.store) := by
    refine Ends.mapError (h.ends_updateAll fun c hc => ⟨task, htask, ?_⟩)
    rw [List.mem_singleton.mp hc]
    exact ⟨rfl, rfl, rfl, fun hrecur => hrecur⟩
  exact hupdate.bind fun next hnext => .ok hnext

omit hfresh in
/-- A diagnosis finds nothing, or cannot be made since a row is unreadable. -/
lemma ends_diag : Ends (fun r => r.isOk = true) (fun f => f.breaksSeries = false) t.diag := by
  have hall : Ends (fun l => l.Perm t.store.tasks) (fun f => f.breaksSeries = false)
      (t.store.all.mapError Fault.store) := h.ends_all.mapError
  refine hall.bind fun l hl => ?_
  rw [Integrity.diagnose?_of_structured h.structured hl]
  exact .ok (Integrity.diagnose_isOk h.structured hl)

end

/-- Every command leaves a well-formed store well-formed and reports no broken series. -/
lemma endsWell_run (h : t.store.WellFormed)
    (hfresh : t.store.Fresh draw (t.store.tasks.length * mostPerPass + 1)) (command : Command) :
    EndsWell (t.run draw command) := by
  have hpass : t.store.Fresh draw (t.store.tasks.length * mostPerPass) :=
    hfresh.mono (Nat.le_add_right _ _)
  cases command with
  | add description f =>
    exact (endsWell_add h (hfresh.mono (Nat.le_add_left _ _)) description f).map _
  | list sort => exact (endsWell_list h hpass sort).map _
  | count => exact (endsWell_count h hpass).map _
  | gc => exact (endsWell_gc h hpass).map _
  | modify token f => exact (endsWell_modify h hpass token f).map _
  | delete token => exact (endsWell_propagate h hpass token .delete).map _
  | done token => exact (endsWell_done h token).map _
  | get token =>
    unfold run
    exact endsWell_of_ends h ((Store.ends_find h.sound token).mono fun _ _ => trivial).map
  | diag =>
    unfold run
    exact endsWell_of_ends h ((ends_diag h).mono fun _ _ => trivial).map

end Tracker

end TaskSeries
