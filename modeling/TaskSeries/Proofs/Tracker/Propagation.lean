import TaskSeries.Proofs.Series.Proposals
import TaskSeries.Proofs.Tracker.DueDates

/-!
# What a mutation changes

A mutation changes the task that it addresses and, if the answer is yes, the pending occurrences behind
it in its series; nothing else in the store changes, and a mutation that fails changes nothing at all
(`Tracker.propagated_of_run`). It fails when the question cannot be put, and otherwise only where an
instant is stored that does not come back from the store: `Tracker.delete_besideLeapSecondDue` shows
such a case.
-/

namespace TaskSeries

open TaskSeries.Calendar TaskSeries.Series

/-! ## Later occurrences -/

/-- The pending occurrences behind a task in its series. -/
def Store.later (s : Store) (on : Task) : List Task :=
  s.tasks.filter fun t => on.parent.isSome && t.parent == on.parent && t.status == .pending &&
    on.mask.any fun i => t.mask.any (i < ·)

/-- Among stored tasks, the later siblings of one are those behind it in its series. -/
lemma Store.isLaterSibling_eq {s : Store} (h : s.WellFormed) {on t : Task} (hon : on ∈ s.tasks)
    (ht : t ∈ s.tasks) :
    on.isLaterSibling t = (on.parent.isSome && t.parent == on.parent && t.status == .pending &&
      on.mask.any fun i => t.mask.any (i < ·)) := by
  unfold Task.isLaterSibling
  cases hparent : on.parent with
  | none => rfl
  | some p =>
    cases hmask : on.mask with
    | none => simp
    | some i =>
      by_cases hlt : t.mask.any (i < ·) = true
      · -- a task is not behind itself
        have hne : (t.id != on.id) = true := by
          rw [bne_iff_ne]
          intro hid
          rw [h.eq_of_id ht hon hid, hmask] at hlt
          simp at hlt
        simp [hlt, hne]
      · simp [hlt]

namespace Tracker

variable {t : Tracker} {draw : Nat → TaskId} {s : Store} {on : Task} {m : Mutation}

/-- Where all tasks are readable, those of a series are read, and with them the later ones. -/
lemma exists_siblings_eq_ok (h : s.WellFormed) (hon : on ∈ s.tasks)
    (hreadable : ∀ u ∈ s.tasks, u.Readable) :
    ∃ candidates, siblings s on = .ok candidates ∧
      (on.laterSiblings candidates).Perm (s.later on) := by
  have hfilter : ∀ l : List Task, (∀ u ∈ l, u ∈ s.tasks) → l.filter on.isLaterSibling =
      l.filter fun u => on.parent.isSome && u.parent == on.parent && u.status == .pending &&
        on.mask.any fun i => u.mask.any (i < ·) :=
    fun l hl => List.filter_congr fun u hu => Store.isLaterSibling_eq h hon (hl u hu)
  unfold siblings Task.laterSiblings Store.later
  cases hparent : on.parent with
  | none =>
    refine ⟨[], rfl, ?_⟩
    rw [List.filter_nil, List.nil_perm, List.filter_eq_nil_iff]
    intro u _ hlater
    exact absurd hlater Bool.false_ne_true
  | some p =>
    have hchildren : ∀ u ∈ s.children p, u.Readable := fun u hu =>
      hreadable u (mem_childrenIn.mp hu).1
    obtain ⟨candidates, hok⟩ := (Store.exists_childrenOf_eq_ok_iff h.sound p).mpr hchildren
    have hperm := (hok ▸ h.ends_childrenOf p).of_ok
    refine ⟨candidates, mapError_eq_ok.mpr hok, ?_⟩
    have hstored : ∀ u ∈ s.children p, u ∈ s.tasks := fun u hu => (mem_childrenIn.mp hu).1
    refine (hperm.filter on.isLaterSibling).trans ?_
    rw [hfilter _ hstored, hparent]
    unfold Store.children childrenIn
    rw [List.filter_filter]
    refine List.Perm.of_eq (List.filter_congr fun u _ => ?_)
    cases u.parent == some p <;> simp

variable {token : String}

/-! ## Writing back -/

/-- Changed tasks can be written back where everything is readable and regular instants are written. -/
lemma writeBack_map_eq_ok {chosen : List Task} {now : Instant} (h : s.WellFormed)
    (hwrite : s.readOnly = false) (hreadable : ∀ u ∈ s.tasks, u.Readable)
    (hregular : ∀ i ∈ m.instants now, i ≤ .lastRegular) (hchosen : ∀ u ∈ chosen, u ∈ s.tasks)
    (hsome : chosen ≠ []) :
    writeBack s (chosen.map (m.apply now)) = .ok (s.changed chosen (m.apply now)) := by
  have hid : ∀ u, (m.apply now u).id = u.id := fun u => (keeps_apply m now u).id
  rw [writeBack_eq_ok, Store.check_eq_ok_iff (h.changed chosen (keeps_apply m now))]
  refine ⟨Store.updateAll_map_eq_ok h hchosen hid hwrite, ?_⟩
  rw [Store.readable_changed_iff h.sound (fun u hu => ⟨hchosen u hu, hreadable u (hchosen u hu)⟩) hsome]
  exact ⟨hreadable, hregular⟩

/-- A proposal of which the outcome is written back. -/
lemma propagate_eq_ok {candidates : List Task} {outcome : Outcome} {c : Coordinator} {s' : Store}
    (haddress : t.address draw token = .ok (s, on, candidates))
    (hpropose : t.coordinator.propose m on candidates t.now = (.ok outcome, c))
    (hwrite : writeBack s outcome.changed = .ok s') :
    t.propagate draw token m = (.ok outcome, { t.afterQuestions c with store := s' }) := by
  unfold propagate
  rw [haddress]
  dsimp only
  rw [hpropose]
  dsimp only
  rw [hwrite]

/-- A proposal that fails. -/
lemma propagate_eq_error {candidates : List Task} {f : Fault} {c : Coordinator}
    (haddress : t.address draw token = .ok (s, on, candidates))
    (hpropose : t.coordinator.propose m on candidates t.now = (.error f, c)) :
    t.propagate draw token m = (.error f, t.afterQuestions c) := by
  unfold propagate
  rw [haddress]
  dsimp only
  rw [hpropose]

/-! ## With and without confirmation -/

/-- With confirmation the respondent of the tracker is asked. -/
lemma coordinator_of_on (h : t.config.confirmation = true) :
    t.coordinator = Coordinator.start t.respondent := by
  unfold coordinator
  rw [h]
  rfl

/-- Without confirmation the answer is yes, and nobody is asked. -/
lemma coordinator_of_off (h : t.config.confirmation = false) :
    t.coordinator = Coordinator.start (.fixed true) := by
  unfold coordinator
  rw [h]
  rfl

/-- Where changes are confirmed, the answers that were used and the questions are kept. -/
lemma afterQuestions_of_on (h : t.config.confirmation = true) (c : Coordinator) :
    t.afterQuestions c =
      { t with respondent := c.respondent, asked := t.asked ++ c.asked } := by
  unfold afterQuestions
  rw [h]
  rfl

/-- Where they are not, nothing is asked. -/
lemma afterQuestions_of_off (h : t.config.confirmation = false) (c : Coordinator) :
    t.afterQuestions c = t := by
  unfold afterQuestions
  rw [h]
  rfl

/-! ## Mutations from end to end -/

/-- How a mutation of `on` ends when the pass before it has led to `s`. -/
structure Propagated (t : Tracker) (m : Mutation) (s : Store) (on : Task)
    (result : Except Fault Reply × Tracker) : Prop where
  /-- With nothing pending behind it the task is changed alone, and nothing is asked. -/
  alone (hnone : s.later on = []) :
    result = (.ok (.outcome ⟨.applied, [m.apply t.now on]⟩),
      { t with store := s.changed [on] (m.apply t.now) })
  /-- Without confirmation the later occurrences are changed too, and nothing is asked. -/
  unasked (hsome : s.later on ≠ []) (hoff : t.config.confirmation = false) :
    ∃ later, later.Perm (s.later on) ∧
      result = (.ok (.outcome ⟨.applied, (on :: later).map (m.apply t.now)⟩),
        { t with store := s.changed (on :: later) (m.apply t.now) })
  /-- After a yes the later occurrences are changed too. -/
  yes (hsome : s.later on ≠ []) (hon : t.config.confirmation = true) {next : Respondent}
    (hanswer : t.respondent.answer = (.yes, next)) :
    ∃ later, later.Perm (s.later on) ∧
      result = (.ok (.outcome ⟨.applied, (on :: later).map (m.apply t.now)⟩),
        { t with
          store := s.changed (on :: later) (m.apply t.now)
          respondent := next
          asked := t.asked ++ t.respondent.questions m })
  /-- After a no the task is changed alone. -/
  no (hsome : s.later on ≠ []) (hon : t.config.confirmation = true) {next : Respondent}
    (hanswer : t.respondent.answer = (.no, next)) :
    result = (.ok (.outcome ⟨.rejected, [m.apply t.now on]⟩),
      { t with
        store := s.changed [on] (m.apply t.now)
        respondent := next
        asked := t.asked ++ t.respondent.questions m })
  /-- When the question cannot be put, not even the pass is kept. -/
  unavailable (hsome : s.later on ≠ []) (hon : t.config.confirmation = true) {next : Respondent}
    (hanswer : t.respondent.answer = (.unavailable, next)) :
    result = (.error .confirmation,
      { t with
        respondent := next
        asked := t.asked ++ t.respondent.questions m })

section
variable {command : Command} {r : TriggerReport} (h : t.store.WellFormed)
  (hcommand : command.mutation? t.now = some (token, m))
  (hpass : t.store.trigger draw t.config.recurrence t.now = .ok (r, s))
  (hfind : s.find token = .ok on)
include h hcommand hpass hfind

/-- A mutation ends as it should where everything is readable and regular instants are written. -/
lemma propagated_of_regular (hwrite : t.store.readOnly = false)
    (hreadable : ∀ u ∈ s.tasks, u.Readable) (hregular : ∀ i ∈ m.instants t.now, i ≤ .lastRegular) :
    t.Propagated m s on (t.run draw command) := by
  have hs := (Store.passed_of_trigger h hpass).wellFormed h
  have hwrite' := (Store.readOnly_of_trigger h hpass).trans hwrite
  have hon := (hfind ▸ Store.ends_find hs.sound token).of_ok.1
  obtain ⟨candidates, hsiblings, hperm⟩ := exists_siblings_eq_ok hs hon hreadable
  have haddress : t.address draw token = .ok (s, on, candidates) :=
    address_eq_ok.mpr ⟨r, hpass, hfind, hsiblings⟩
  have hchosen : ∀ u ∈ on :: on.laterSiblings candidates, u ∈ s.tasks := by
    rw [List.forall_mem_cons]
    exact ⟨hon, fun u hu => (List.mem_filter.mp (hperm.mem_iff.mp hu)).1⟩
  have hall := writeBack_map_eq_ok hs hwrite' hreadable hregular hchosen (List.cons_ne_nil _ _)
  have hone := writeBack_map_eq_ok hs hwrite' hreadable hregular
    (fun u hu => List.mem_singleton.mp hu ▸ hon) (List.cons_ne_nil on [])
  have hlater : s.later on ≠ [] → on.laterSiblings candidates ≠ [] := by
    intro hsome hnil
    rw [hnil, List.nil_perm] at hperm
    exact hsome hperm
  rw [run_of_mutation hcommand]
  refine ⟨?_, ?_, ?_, ?_, ?_⟩
  · intro hnone
    rw [hnone, List.perm_nil] at hperm
    -- the respondent is as it was, because it was not asked
    cases hconfirmation : t.config.confirmation with
    | true =>
      have hpropose := @Coordinator.propose_of_alone t.respondent m on candidates t.now hperm
      rw [← coordinator_of_on hconfirmation] at hpropose
      rw [propagate_eq_ok haddress hpropose hone, afterQuestions_of_on hconfirmation,
        List.append_nil]
      rfl
    | false =>
      have hpropose := @Coordinator.propose_of_alone (.fixed true) m on candidates t.now hperm
      rw [← coordinator_of_off hconfirmation] at hpropose
      rw [propagate_eq_ok haddress hpropose hone, afterQuestions_of_off hconfirmation]
      rfl
  · intro hsome hoff
    have hpropose := @Coordinator.propose_of_later (.fixed true) _ m on candidates t.now _
      (hlater hsome) rfl
    rw [← coordinator_of_off hoff] at hpropose
    refine ⟨on.laterSiblings candidates, hperm, ?_⟩
    rw [propagate_eq_ok haddress hpropose hall, afterQuestions_of_off hoff]
    rfl
  all_goals
    intro hsome hask next hanswer
    have hpropose := @Coordinator.propose_of_later _ _ m on candidates t.now _ (hlater hsome) hanswer
    rw [← coordinator_of_on hask] at hpropose
  · refine ⟨on.laterSiblings candidates, hperm, ?_⟩
    rw [propagate_eq_ok haddress hpropose hall, afterQuestions_of_on hask]
    rfl
  · rw [propagate_eq_ok haddress hpropose hone, afterQuestions_of_on hask]
    rfl
  · rw [propagate_eq_error haddress hpropose, afterQuestions_of_on hask]
    rfl

/-- A mutation fails where something stored or to be stored does not come back from the store. -/
lemma fails_of_not_regular (hirregular : ¬ ((∀ u ∈ s.tasks, u.Readable) ∧
    ∀ i ∈ m.instants t.now, i ≤ .lastRegular)) :
    ∃ f, (t.run draw command).1 = .error f ∧ (t.run draw command).2.store = t.store := by
  rw [run_of_mutation hcommand]
  rcases t.propagate_cases draw token m with ⟨f, herror, hstore⟩ |
    ⟨s', on', candidates, outcome, c, next, haddress, hpropose, hwrite, -⟩
  · refine ⟨f, ?_, hstore⟩
    rw [Prod.map_fst, herror]
    rfl
  · -- what was written back has been checked
    obtain ⟨r', hpass', hfind', hsiblings⟩ := address_eq_ok.mp haddress
    obtain ⟨-, rfl⟩ := Prod.mk.inj (Except.ok.inj (hpass'.symm.trans hpass))
    obtain rfl := Except.ok.inj (hfind'.symm.trans hfind)
    obtain ⟨later, hlater, hchanged⟩ := Coordinator.changed_of_propose hpropose
    have hs := (Store.passed_of_trigger h hpass).wellFormed h
    have hchosen : ∀ u ∈ on' :: later, u ∈ s'.tasks ∧ u.Readable := by
      rw [List.forall_mem_cons]
      refine ⟨(hfind ▸ Store.ends_find hs.sound token).of_ok, ?_⟩
      intro u hu
      exact mem_of_siblings_eq_ok hs.sound hsiblings (List.mem_filter.mp (hlater u hu)).1
    obtain ⟨hupdate, hcheck⟩ := writeBack_eq_ok.mp hwrite
    rw [hchanged] at hupdate
    have hnext := Store.eq_changed_of_updateAll hs (fun u hu => (hchosen u hu).1)
      (fun u => (keeps_apply m t.now u).id) hupdate
    rw [hnext, Store.check_eq_ok_iff (hs.changed _ (keeps_apply m t.now)),
      Store.readable_changed_iff hs.sound hchosen (List.cons_ne_nil _ _)] at hcheck
    exact absurd hcheck hirregular

end

/-- A mutation that comes to the task it addresses ends in one of five ways, according to what is pending
behind the task and to the answer, or fails because of an instant that does not come back from the
store. When it fails the store is as it was before the command. -/
theorem propagated_of_run {command : Command} {r : TriggerReport}
    (h : ReachableBy (fun _ => True) t.store) (hcommand : command.mutation? t.now = some (token, m))
    (hpass : t.store.trigger draw t.config.recurrence t.now = .ok (r, s))
    (hfind : s.find token = .ok on) :
    ((∀ u ∈ s.tasks, u.Readable) ∧ (∀ i ∈ m.instants t.now, i ≤ .lastRegular) →
        t.Propagated m s on (t.run draw command)) ∧
      (¬ ((∀ u ∈ s.tasks, u.Readable) ∧ ∀ i ∈ m.instants t.now, i ≤ .lastRegular) →
        ∃ f, (t.run draw command).1 = .error f ∧ (t.run draw command).2.store = t.store) := by
  constructor
  · rintro ⟨hreadable, hregular⟩
    exact propagated_of_regular h.wellFormed hcommand hpass hfind h.readOnly_eq hreadable hregular
  · exact fails_of_not_regular h.wellFormed hcommand hpass hfind

/-- A tracker with the daily task and two occurrences, and one yes to be given. -/
def willing : Tracker :=
  { keepingTwo twoStore with respondent := .script [.yes] }

lemma trigger_twoStore :
    twoStore.trigger (TaskId.drawn 1) { limit := 2 } start.now = .ok (⟨0, 0⟩, twoStore) := by
  have hwf := reachableBy_twoStore.wellFormed
  rw [Store.trigger_eq_ok_iff]
  refine ⟨twoStore, ?_, rfl, fun hsome => absurd rfl hsome⟩
  exact generate_of_ahead hwf (by decide) (by decide) (by decide)

/-- The first of two occurrences of the daily task is deleted. The question is answered with yes, so that the
second one is deleted, too. -/
theorem propagated_willing :
    (ReachableBy (fun _ => True) willing.store ∧
      (Command.delete (TaskId.drawn 1 1).text).mutation? willing.now =
        some ((TaskId.drawn 1 1).text, .delete) ∧
      willing.store.trigger (TaskId.drawn 1) willing.config.recurrence willing.now =
        .ok (⟨0, 0⟩, twoStore) ∧
      twoStore.find (TaskId.drawn 1 1).text = .ok firstDaily ∧
      (∀ u ∈ twoStore.tasks, u.Readable) ∧
      (∀ i ∈ Mutation.delete.instants willing.now, i ≤ .lastRegular) ∧
      twoStore.later firstDaily = [secondDaily]) ∧
    willing.run (TaskId.drawn 1) (.delete (TaskId.drawn 1 1).text) =
      (.ok (.outcome ⟨.applied, [firstDaily, secondDaily].map (Mutation.delete.apply start.now)⟩),
        { willing with
          store := twoStore.changed [firstDaily, secondDaily] (Mutation.delete.apply start.now)
          respondent := .script []
          asked := [Coordinator.question .delete] }) := by
  have hreachable : ReachableBy (fun _ => True) willing.store :=
    reachableBy_twoStore.mono fun _ _ => trivial
  have hfind : twoStore.find (TaskId.drawn 1 1).text = .ok firstDaily := by decide +kernel
  have hreadable : ∀ u ∈ twoStore.tasks, u.Readable := by decide +kernel
  have hregular : ∀ i ∈ Mutation.delete.instants willing.now, i ≤ .lastRegular := by decide +kernel
  have hlater : twoStore.later firstDaily = [secondDaily] := by decide +kernel
  have hcommand : (Command.delete (TaskId.drawn 1 1).text).mutation? willing.now =
      some ((TaskId.drawn 1 1).text, .delete) := rfl
  have hends := (propagated_of_run hreachable hcommand trigger_twoStore hfind).1 ⟨hreadable, hregular⟩
  obtain ⟨later, hperm, hresult⟩ := hends.yes (hlater ▸ List.cons_ne_nil _ _) rfl rfl
  rw [hlater, List.perm_singleton] at hperm
  rw [hperm] at hresult
  exact ⟨⟨hreachable, hcommand, trigger_twoStore, hfind, hreadable, hregular, hlater⟩, hresult⟩

/-! ## A deletion that fails -/

/-- A task with nothing but a description. -/
def plainTask : Task := Task.fresh (TaskId.drawn 1 1) "y" start.now

/-- A tracker in which the plain task was entered behind the other one. -/
def besideLeapSecondDue : Tracker :=
  { start with store := (({} : Store).added [leapSecondTask]).added [plainTask] }

lemma reachableBy_besideLeapSecondDue :
    ReachableBy (fun _ => True) besideLeapSecondDue.store := by
  have hfresh : HasFreshIds {} (TaskId.drawn 1) := hasFreshIds_empty
  have hfirst := @run_add start _ "x" leapSecondDue leapSecondTask Store.wellFormed_empty rfl hfresh
    (by decide)
  have hone : ReachableBy (fun _ => True) (({} : Store).added [leapSecondTask]) :=
    .of_run .empty trivial (congrArg Prod.snd hfirst)
  have hsecond := @run_add { start with store := ({} : Store).added [leapSecondTask] }
    (TaskId.drawn 1) "y" {} plainTask hone.wellFormed rfl
    (Store.fresh_of_map_id_eq rfl (by decide)) (by decide)
  exact .of_run hone trivial (congrArg Prod.snd hsecond)

/-- The plain task cannot be deleted although a pass succeeds and nothing is pending behind it. -/
theorem delete_besideLeapSecondDue :
    ReachableBy (fun _ => True) besideLeapSecondDue.store ∧
      besideLeapSecondDue.store.trigger (TaskId.drawn 1) besideLeapSecondDue.config.recurrence
        besideLeapSecondDue.now = .ok (⟨0, 0⟩, besideLeapSecondDue.store) ∧
      besideLeapSecondDue.store.find (TaskId.drawn 1 1).text = .ok plainTask ∧
      besideLeapSecondDue.store.later plainTask = [] ∧
      ∃ f, (besideLeapSecondDue.run (TaskId.drawn 1) (.delete (TaskId.drawn 1 1).text)).1 =
        .error f := by
  have hreachable := reachableBy_besideLeapSecondDue
  have hwf := hreachable.wellFormed
  have hpass : besideLeapSecondDue.store.trigger (TaskId.drawn 1)
      besideLeapSecondDue.config.recurrence besideLeapSecondDue.now =
      .ok (⟨0, 0⟩, besideLeapSecondDue.store) :=
    Store.trigger_eq_nothing_of_gate hwf rfl (by decide +kernel)
  have hfind : besideLeapSecondDue.store.find (TaskId.drawn 1 1).text = .ok plainTask := by
    decide +kernel
  have hunreadable : ¬ ∀ u ∈ besideLeapSecondDue.store.tasks, u.Readable := by decide +kernel
  have hcommand : (Command.delete (TaskId.drawn 1 1).text).mutation? besideLeapSecondDue.now =
      some ((TaskId.drawn 1 1).text, .delete) := rfl
  obtain ⟨f, hf, -⟩ := fails_of_not_regular hwf hcommand hpass hfind fun hall => hunreadable hall.1
  exact ⟨hreachable, hpass, hfind, by decide +kernel, f, hf⟩

end Tracker

end TaskSeries
