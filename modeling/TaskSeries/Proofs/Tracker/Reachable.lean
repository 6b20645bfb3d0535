import TaskSeries.Proofs.Tracker.Commands

/-!
# Runs of commands

The stores that can be reached from the empty one by any commands, in any configuration, at any
instants and with any answers to questions, as long as the ids that are drawn are new. All of them are
well-formed: `Tracker.structured_of_reachable` says what this means for series, for faults, and for the
report over the stored tasks. The report fails where an instant was stored that does not come back from
the store, as `Tracker.diag_withLeapSecondDue` shows.
-/

namespace TaskSeries.Tracker

open TaskSeries.Calendar TaskSeries.Series

/-- The ids drawn next are new for everything that a command could make. -/
def HasFreshIds (s : Store) (draw : Nat → TaskId) : Prop :=
  s.Fresh draw (s.tasks.length * mostPerPass + 1)

/-- The stores that runs of commands lead to. Between two commands everything but the store may change:
the configuration, the instant, and who answers. -/
inductive Reachable : Store → Prop
  | empty : Reachable {}
  | run {t : Tracker} {draw : Nat → TaskId} (command : Command) (h : Reachable t.store)
    (hfresh : HasFreshIds t.store draw) : Reachable (t.run draw command).2.store

/-- A command that leads from one tracker to another reaches the store of the second one. -/
lemma Reachable.of_run {t u : Tracker} {draw : Nat → TaskId} {command : Command}
    (h : Reachable t.store) (hfresh : HasFreshIds t.store draw)
    (hrun : (t.run draw command).2 = u) : Reachable u.store :=
  hrun ▸ .run command h hfresh

/-- Every reachable store is well-formed. -/
lemma Reachable.wellFormed {s : Store} (h : Reachable s) : s.WellFormed := by
  induction h with
  | empty => exact Store.wellFormed_empty
  | run command _ hfresh ih => exact (endsWell_run ih hfresh command).1

/-- The report over the stored tasks is given, and shows no violation, exactly when all instants come
back from the store. -/
lemma diag_isOk_iff {t : Tracker} (h : t.store.WellFormed) :
    (∃ report, t.diag = .ok report ∧ report.isOk = true) ↔
      ∀ task ∈ t.store.tasks, ∀ i ∈ task.instants, i ≤ .lastRegular := by
  have hread := Store.exists_all_eq_ok_iff h.sound
  unfold Task.Readable at hread
  rw [← hread]
  constructor
  · rintro ⟨report, hdiag, -⟩
    unfold diag at hdiag
    obtain ⟨tasks, htasks, -⟩ := bind_eq_ok.mp hdiag
    exact ⟨tasks, mapError_eq_ok.mp htasks⟩
  · rintro ⟨tasks, htasks⟩
    have hperm := (htasks ▸ h.ends_all).of_ok
    have hdiag : t.diag = .ok (Integrity.diagnose tasks) := by
      unfold diag
      refine bind_eq_ok.mpr ⟨tasks, mapError_eq_ok.mpr htasks, ?_⟩
      rw [Integrity.diagnose?_of_structured h.structured hperm]
    have hok := ends_diag h
    rw [hdiag] at hok
    exact ⟨_, hdiag, hok.of_ok⟩

/-- Every store that runs of commands lead to is structured, and no command reports a broken series. The
report over the tasks is given, and shows no violation, exactly as long as no instant behind the last
regular one is stored. -/
theorem structured_of_reachable {s : Store} (h : Reachable s) :
    Structured s.tasks ∧
      (∀ (t : Tracker) (draw : Nat → TaskId) (command : Command) (f : Fault), t.store = s →
        HasFreshIds s draw → (t.run draw command).1 = .error f → f.breaksSeries = false) ∧
      ∀ t : Tracker, t.store = s → ((∃ report, t.diag = .ok report ∧ report.isOk = true) ↔
        ∀ task ∈ s.tasks, ∀ i ∈ task.instants, i ≤ .lastRegular) := by
  have hwf := h.wellFormed
  refine ⟨hwf.structured, ?_, ?_⟩
  · rintro t draw command f rfl hfresh hf
    exact (endsWell_run hwf hfresh command).2 f hf
  · rintro t rfl
    exact diag_isOk_iff hwf

/-! ## A due date that does not come back -/

/-- A tracker with an empty store, at nine o'clock on 2026-10-19. -/
def start : Tracker where
  now := ⟨1792400400, 0, by decide⟩
  respondent := .fixed true

/-- What is typed to enter a task that is due in the leap second at the end of the range. -/
def leapSecondDue : Fields := { due := some "+262142-12-31T23:59:60" }

/-- A task that is due in the leap second at the end of the range. -/
def leapSecondTask : Task :=
  { Task.fresh (TaskId.drawn 1 0) "x" start.now with
    due := some ⟨8210266876799, 1000000000, by decide⟩ }

/-- The tracker after that task was entered. -/
def withLeapSecondDue : Tracker :=
  (start.run (TaskId.drawn 1) (.add "x" leapSecondDue)).2

lemma hasFreshIds_empty : HasFreshIds {} (TaskId.drawn 1) :=
  Store.fresh_of_map_id_eq rfl (by decide)

lemma reachable_withLeapSecondDue : Reachable withLeapSecondDue.store :=
  .run _ .empty hasFreshIds_empty

/-- What was typed is stored with the leap second. -/
lemma store_withLeapSecondDue : withLeapSecondDue.store = ({} : Store).added [leapSecondTask] := by
  have hnew : Fields.newTask (TaskId.drawn 1 0) "x" leapSecondDue start.now = .ok leapSecondTask := by
    decide +kernel
  have hfresh : start.store.Fresh (TaskId.drawn 1) 1 := hasFreshIds_empty
  have hadd := add_eq_ok Store.wellFormed_empty rfl hfresh hnew
  unfold withLeapSecondDue run
  dsimp only
  rw [hadd]
  rfl

/-- Tasks cannot be reported once one is due in the leap second at the end of the range. -/
theorem diag_withLeapSecondDue :
    Reachable withLeapSecondDue.store ∧ withLeapSecondDue.diag = .error (.store .unreadable) := by
  refine ⟨reachable_withLeapSecondDue, ?_⟩
  unfold diag
  rw [store_withLeapSecondDue]
  rfl

/-- The store with that task is structured, and that it cannot be reported is no fault that reports a broken
series: it comes from the due date, which is behind the last regular instant. -/
theorem structured_withLeapSecondDue :
    (Reachable withLeapSecondDue.store ∧ HasFreshIds withLeapSecondDue.store (TaskId.drawn 1)) ∧
      Structured withLeapSecondDue.store.tasks ∧
      (∀ f, (withLeapSecondDue.run (TaskId.drawn 1) .diag).1 = .error f → f.breaksSeries = false) ∧
      (leapSecondTask ∈ withLeapSecondDue.store.tasks ∧
        ∃ i ∈ leapSecondTask.instants, Instant.lastRegular < i) ∧
      ¬ ∃ report, withLeapSecondDue.diag = .ok report ∧ report.isOk = true := by
  have hfresh : HasFreshIds withLeapSecondDue.store (TaskId.drawn 1) := by
    rw [store_withLeapSecondDue]
    exact Store.fresh_of_map_id_eq rfl (by decide)
  obtain ⟨hstructured, hfaults, hdiag⟩ := structured_of_reachable reachable_withLeapSecondDue
  have hlate : leapSecondTask ∈ withLeapSecondDue.store.tasks ∧
      ∃ i ∈ leapSecondTask.instants, Instant.lastRegular < i := by
    rw [store_withLeapSecondDue]
    decide
  refine ⟨⟨reachable_withLeapSecondDue, hfresh⟩, hstructured, ?_, hlate, fun hok => ?_⟩
  · exact fun f => hfaults withLeapSecondDue (TaskId.drawn 1) .diag f rfl hfresh
  · obtain ⟨htask, i, hi, hbehind⟩ := hlate
    exact (hdiag withLeapSecondDue rfl).mp hok leapSecondTask htask i hi hbehind

end TaskSeries.Tracker
