import TaskSeries.Proofs.Tracker.Again
import TaskSeries.Proofs.Tracker.Runs

/-!
# The due dates of a series

A series goes on from its latest occurrence, and what is made is due later than that one. As long as no
command moves an occurrence to another date, the due dates of every series therefore ascend with the
places, and no date comes twice: `dues_ascend`. The parent's due date, period and expiry may change in
between, occurrences may be completed and deleted, and the clock may go back.
-/

namespace TaskSeries

open TaskSeries.Calendar TaskSeries.Series

variable {s : Store}

/-- Calls that move no occurrence keep the due dates of every series ascending. -/
lemma ReachableBy.ascending (h : ReachableBy (fun c => ¬ c.Redates) s) (id : TaskId) :
    Ascending (s.children id) := by
  induction h with
  | empty => exact ascending_nil
  | call h hdates ih =>
    have hwf := h.wellFormed
    exact ih.continues hwf.structured (Call.continues hwf hdates id)

/-- As long as no occurrence is moved to another date, every occurrence has a due date, that of a later
one in the same series is later, and no two of one series have the same. -/
theorem dues_ascend (h : ReachableBy (fun c => ¬ c.Redates) s) :
    (∀ t ∈ s.tasks, t.parent.isSome = true → t.due.isSome = true) ∧
      (∀ t ∈ s.tasks, ∀ u ∈ s.tasks, ∀ p i j, t.parent = some p → u.parent = some p →
        t.mask = some i → u.mask = some j → i < j →
        ∃ d e, t.due = some d ∧ u.due = some e ∧ d < e) ∧
      ∀ t ∈ s.tasks, ∀ u ∈ s.tasks, t.parent.isSome = true → t.parent = u.parent →
        t.due = u.due → t = u := by
  have hs := h.wellFormed.structured
  have hdated : ∀ t ∈ s.tasks, ∀ p, t.parent = some p → ∃ due, t.due = some due := by
    intro t ht p hp
    exact (h.ascending p).exists_due (mem_childrenIn.mpr ⟨ht, hp⟩)
  have hlater : ∀ t ∈ s.tasks, ∀ u ∈ s.tasks, ∀ p i j, t.parent = some p → u.parent = some p →
      t.mask = some i → u.mask = some j → i < j →
      ∃ d e, t.due = some d ∧ u.due = some e ∧ d < e := by
    intro t ht u hu p i j htp hup hi hj hlt
    obtain ⟨d, hd⟩ := hdated t ht p htp
    obtain ⟨e, he⟩ := hdated u hu p hup
    exact ⟨d, e, hd, he, (h.ascending p).lt_of_mask_lt hs (mem_childrenIn.mpr ⟨ht, htp⟩)
      (mem_childrenIn.mpr ⟨hu, hup⟩) hi hj hlt hd he⟩
  refine ⟨?_, hlater, ?_⟩
  · intro t ht hparent
    obtain ⟨p, hp⟩ := Option.isSome_iff_exists.mp hparent
    obtain ⟨due, hdue⟩ := hdated t ht p hp
    rw [hdue]
    rfl
  · intro t ht u hu hparent hsame hdue
    obtain ⟨p, hp⟩ := Option.isSome_iff_exists.mp hparent
    have hup : u.parent = some p := hsame ▸ hp
    have hti := hs.placed t ht
    have huj := hs.placed u hu
    rw [hp] at hti
    rw [hup] at huj
    obtain ⟨i, hi⟩ := Option.isSome_iff_exists.mp hti
    obtain ⟨j, hj⟩ := Option.isSome_iff_exists.mp huj
    -- one of two different places is the later one, with a later date
    have hnot : ∀ d e, t.due = some d → u.due = some e → ¬ d < e ∧ ¬ e < d := by
      intro d e hd he
      rw [hdue, he] at hd
      rw [Option.some.inj hd]
      exact ⟨Instant.lt_irrefl d, Instant.lt_irrefl d⟩
    rcases Nat.lt_trichotomy i j with hlt | heq | hgt
    · obtain ⟨d, e, hd, he, hde⟩ := hlater t ht u hu p i j hp hup hi hj hlt
      exact absurd hde (hnot d e hd he).1
    · refine hs.eq_of_mask (mem_childrenIn.mpr ⟨ht, hp⟩) (mem_childrenIn.mpr ⟨hu, hup⟩) ?_
      rw [hi, hj, heq]
    · obtain ⟨e, d, he, hd, hed⟩ := hlater u hu t ht p j i hup hp hj hi hgt
      exact absurd hed (hnot d e hd he).2

/-! ## The daily task, twice ahead -/

namespace Tracker

/-- A tracker that keeps two occurrences ahead, at nine o'clock on 2026-10-19. -/
def keepingTwo (s : Store) : Tracker :=
  { start with
    store := s
    config := { recurrence := { limit := 2 } } }

/-- The second occurrence of the daily task. -/
def secondDaily : Task :=
  occurrence daily (TaskId.drawn 1 2) ⟨1792540800, 0, by decide⟩ 1 start.now

/-- The store with the daily task and its first two occurrences. -/
def twoStore : Store := dailyStore.added [firstDaily, secondDaily]

lemma trigger_keepingTwo :
    dailyStore.trigger (TaskId.drawn 1) { limit := 2 } start.now = .ok (⟨2, 0⟩, twoStore) := by
  have hmade : materialize daily [] start.now 2 (fun i => TaskId.drawn 1 (1 + i)) =
      [firstDaily, secondDaily] := by
    rw [materialize_of_some rfl rfl]
    rfl
  have hgenerate : dailyStore.generate (TaskId.drawn 1) { limit := 2 } start.now = .ok (2, twoStore) := by
    refine generate_dailyStore _ [firstDaily, secondDaily] rfl hmade (by decide)
      (by decide) ?_
    rw [List.forall_mem_cons]
    refine ⟨rfl, fun t ht => ?_⟩
    rw [List.mem_singleton.mp ht]
    rfl
  have hwf : twoStore.WellFormed := by
    obtain ⟨parents, new, hgrown, hx, -⟩ :=
      Store.generate_eq_ok reachable_dailyStore.wellFormed hgenerate
    rw [(Prod.mk.inj hx).2]
    exact hgrown.wellFormed
  rw [Store.trigger_eq_ok_iff]
  exact ⟨twoStore, hgenerate, rfl, fun _ => (Store.check_eq_ok_iff hwf).mpr (by decide)⟩

/-- The pass that makes two occurrences of the daily task. -/
def firstPass : Call := ⟨keepingTwo dailyStore, TaskId.drawn 1, .gc⟩

lemma store_firstPass : firstPass.store = twoStore :=
  congrArg (fun x => x.2.store) (run_gc trigger_keepingTwo)

/-- The daily task is entered, and a pass makes two occurrences. No task is edited. -/
lemma reachableBy_twoStore :
    ReachableBy (fun c => ∀ token fields, c.command ≠ .modify token fields) twoStore := by
  have hfresh : HasFreshIds {} (TaskId.drawn 1) := hasFreshIds_empty
  have hadd := @run_add (keepingTwo {}) _ _ _ _ Store.wellFormed_empty rfl hfresh newTask_daily
  have hgc := @run_gc (keepingTwo dailyStore) _ _ _ trigger_keepingTwo
  have hdaily : ReachableBy (fun c => ∀ token fields, c.command ≠ .modify token fields) dailyStore := by
    refine .of_run .empty ?_ (congrArg Prod.snd hadd)
    exact fun _ _ => nofun
  refine .of_run hdaily ?_ (congrArg Prod.snd hgc)
  exact fun _ _ => nofun

/-- The two occurrences of the daily task are due one after the other, and on different days. -/
theorem dues_ascend_twoStore :
    ReachableBy (fun c => ¬ c.Redates) twoStore ∧
      (firstDaily ∈ twoStore.tasks ∧ secondDaily ∈ twoStore.tasks) ∧
      (firstDaily.mask = some 0 ∧ secondDaily.mask = some 1) ∧
      (firstDaily.due.isSome = true ∧ secondDaily.due.isSome = true) ∧
      (∃ d e, firstDaily.due = some d ∧ secondDaily.due = some e ∧ d < e) ∧
      firstDaily.due ≠ secondDaily.due := by
  have hreachable : ReachableBy (fun c => ¬ c.Redates) twoStore :=
    reachableBy_twoStore.mono fun _ => Call.not_redates
  have hfirst : firstDaily ∈ twoStore.tasks := by decide
  have hsecond : secondDaily ∈ twoStore.tasks := by decide
  obtain ⟨hdated, hascend, hdistinct⟩ := dues_ascend hreachable
  exact ⟨hreachable, ⟨hfirst, hsecond⟩, ⟨rfl, rfl⟩, ⟨hdated _ hfirst rfl, hdated _ hsecond rfl⟩,
    hascend _ hfirst _ hsecond daily.id 0 1 rfl rfl rfl rfl (by decide),
    mt (hdistinct _ hfirst _ hsecond rfl rfl) (by decide)⟩

end Tracker

end TaskSeries
