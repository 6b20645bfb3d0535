import TaskSeries.Proofs.Series.Course
import TaskSeries.Proofs.Series.Passes

/-!
# A full horizon stays full

What a pass leaves behind is not looked at again: whatever the occurrences of a parent are, with what one
pass makes for them another pass at the same instant makes nothing, unless the first one was cut short
(`horizon_stays_full`). Neither do any number of passes at that instant or before it
(`passesFrom_of_few`). And more than a pass asks for is ahead only where it was ahead already
(`pendingAhead_passesFrom_le`).
-/

namespace TaskSeries.Series

open TaskSeries.Calendar

/-! ## Any number of further passes -/

/-- The occurrences of a parent after a number of passes, in order, over those it had before. -/
def passesFrom (parent : Task) (horizon : Nat) (children : List Task) (passes : List Pass) : List Task :=
  passes.foldl (fun children pass =>
    children ++ materialize parent children pass.now horizon pass.draw) children

/-- A series that begins is one with no occurrences before its passes. -/
lemma afterPasses_eq_passesFrom (parent : Task) (horizon : Nat) (passes : List Pass) :
    afterPasses parent horizon passes = passesFrom parent horizon [] passes := rfl

lemma passesFrom_cons (parent : Task) (horizon : Nat) (children : List Task) (pass : Pass)
    (passes : List Pass) :
    passesFrom parent horizon children (pass :: passes) =
      passesFrom parent horizon
        (children ++ materialize parent children pass.now horizon pass.draw) passes := rfl

section
variable {parent : Task} {children : List Task} {now : Instant} {horizon : Nat} {draw : Nat → TaskId}

/-- Where nothing is missing, nothing was missing before. -/
lemma materialize_eq_nil_of_le {earlier : Instant} (hearlier : earlier ≤ now)
    (hnone : materialize parent children now horizon draw = []) (draw' : Nat → TaskId) :
    materialize parent children earlier horizon draw' = [] := by
  rw [materialize_eq_nil_iff] at hnone ⊢
  intro hgoesOn
  exact Nat.le_trans (hnone hgoesOn) (pendingAhead_le_of_le hearlier children)

/-- Where nothing is missing at an instant, passes up to it make nothing. -/
lemma passesFrom_eq_self (hnone : materialize parent children now horizon draw = [])
    {passes : List Pass} (hpasses : ∀ pass ∈ passes, pass.now ≤ now) :
    passesFrom parent horizon children passes = children := by
  induction passes with
  | nil => rfl
  | cons pass passes ih =>
    rw [List.forall_mem_cons] at hpasses
    rw [passesFrom_cons, materialize_eq_nil_of_le hpasses.1 hnone, List.append_nil]
    exact ih hpasses.2

/-- A pass that stops of itself leaves nothing for any passes at its instant or at earlier ones. -/
theorem passesFrom_of_few
    (hfew : (materialize parent children now horizon draw).length < mostPerPass)
    {passes : List Pass} (hpasses : ∀ pass ∈ passes, pass.now ≤ now) :
    passesFrom parent horizon (children ++ materialize parent children now horizon draw) passes =
      children ++ materialize parent children now horizon draw :=
  passesFrom_eq_self (materialize_again hfew draw) hpasses

/-! ## What is ahead -/

/-- With what a pass has made, no more is ahead than before, or than the pass asks for. -/
lemma pendingAhead_append_materialize_le (parent : Task) (children : List Task) (now : Instant)
    (horizon : Nat) (draw : Nat → TaskId) :
    pendingAhead (children ++ materialize parent children now horizon draw) now ≤
      max (pendingAhead children now) horizon := by
  rw [pendingAhead_append, Nat.max_comm]
  exact pendingAhead_materialize_le parent children now horizon draw

/-- Passes at instants that never go back leave no more ahead than there was at the beginning, or than
they ask for. -/
theorem pendingAhead_passesFrom_le {start stop : Instant} {passes : List Pass}
    (hsorted : (start :: (passes.map Pass.now ++ [stop])).Pairwise (· ≤ ·)) :
    pendingAhead (passesFrom parent horizon children passes) stop ≤
      max (pendingAhead children start) horizon := by
  -- on the passes; what is ahead is counted at the instant of each pass in turn
  induction passes generalizing children start with
  | nil =>
    have hle : start ≤ stop := (List.pairwise_cons.mp hsorted).1 stop (List.mem_singleton_self _)
    exact Nat.le_trans (pendingAhead_le_of_le hle children) (Nat.le_max_left _ _)
  | cons pass passes ih =>
    obtain ⟨hstart, hrest⟩ := List.pairwise_cons.mp hsorted
    have hfewer := pendingAhead_le_of_le (hstart pass.now List.mem_cons_self) children
    have hpass := pendingAhead_append_materialize_le parent children pass.now horizon pass.draw
    rw [passesFrom_cons]
    refine Nat.le_trans (ih hrest) ?_
    omega

/-- A series that begins without occurrences never has more ahead than its passes ask for. -/
theorem pendingAhead_afterPasses_le {stop : Instant} {passes : List Pass}
    (hsorted : (passes.map Pass.now ++ [stop]).Pairwise (· ≤ ·)) :
    pendingAhead (afterPasses parent horizon passes) stop ≤ horizon := by
  rw [afterPasses_eq_passesFrom]
  cases passes with
  | nil => exact Nat.zero_le _
  | cons pass passes =>
    have hfirst := pendingAhead_append_materialize_le parent [] pass.now horizon pass.draw
    have hnone : pendingAhead [] pass.now = 0 := rfl
    rw [passesFrom_cons]
    refine Nat.le_trans (pendingAhead_passesFrom_le hsorted) ?_
    omega

end

/-! ## A pass and the next one -/

/-- What a pass has made still fits where it stands already and nothing more is missing. -/
lemma Fits.append_materialize {parent : Task} {children : List Task} {now : Instant} {horizon : Nat}
    (hfits : Fits parent children now horizon) {draw : Nat → TaskId}
    (hnil : ∀ draw', materialize parent (children ++ materialize parent children now horizon draw) now
      horizon draw' = []) :
    Fits parent (children ++ materialize parent children now horizon draw) now horizon := by
  intro hrecur hdue
  have hroom := hfits hrecur hdue
  have hmade := @length_materialize parent children now horizon draw
  obtain ⟨p, hrecur⟩ := Option.isSome_iff_exists.mp hrecur
  obtain ⟨first, hdue⟩ := Option.isSome_iff_exists.mp hdue
  rw [materialize_of_some hrecur hdue, length_occurrences] at hmade
  unfold lacking
  rw [hnil, List.length_nil, materialize_of_some hrecur hdue]
  show nextMask (withOccurrences parent now draw children _) + 0 ≤ lastPlace
  rw [nextMask_withOccurrences]
  omega

/-- Whatever occurrences a parent has, once a pass that was not cut short has added what was missing,
the next pass at the same instant makes nothing; and in every case no more is ahead than there was, or
than the pass asks for. A pass overflows exactly when the places of what is missing and the one behind
them do not fit into 32 bits. -/
theorem horizon_stays_full (parent : Task) (children : List Task) (now : Instant) (horizon : Nat)
    (draw draw' : Nat → TaskId) :
    (∀ made, materialize? parent children now horizon draw = some made →
      (made.length < mostPerPass →
        materialize? parent (children ++ made) now horizon draw' = some []) ∧
      pendingAhead (children ++ made) now ≤ max (pendingAhead children now) horizon) ∧
    (materialize? parent children now horizon draw = none ↔
      parent.recur.isSome ∧ parent.due.isSome ∧
        lastPlace < nextMask children + lacking parent children now horizon) := by
  constructor
  · intro made hmade
    obtain ⟨hfits, rfl⟩ := materialize?_eq_some_iff.mp hmade
    refine ⟨fun hfew => ?_, pendingAhead_append_materialize_le parent children now horizon draw⟩
    have hnil := materialize_again hfew
    exact materialize?_eq_some_iff.mpr ⟨hfits.append_materialize hnil, (hnil draw').symm⟩
  · rw [materialize?_eq_none_iff]
    unfold Fits
    simp only [Classical.not_imp, Nat.not_le]

/-- Occurrences of the bins as no pass leaves them: two at the fourth place, the later one of them without
a due date, one that has lost its place, and none at the places before. -/
def scatteredChildren : List Task :=
  [{ weeklyParent with
      id := TaskId.drawn 3 0
      due := Instant.epoch.plusDays 7
      parent := some weeklyParent.id
      mask := some 3 },
    { weeklyParent with
      id := TaskId.drawn 3 1
      status := .deleted
      due := none
      parent := some weeklyParent.id
      mask := some 3 },
    { weeklyParent with
      id := TaskId.drawn 3 2
      due := Instant.epoch.plusDays 100
      parent := some weeklyParent.id }]

/-- The date of the fourth place is computed anew, and the pass ends at the expiry behind the fifth. -/
theorem horizon_stays_full_scattered :
    ∃ made, materialize? weeklyParent scatteredChildren .epoch 4 (TaskId.drawn 7) = some made ∧
      made.map slot = [(some 4, Instant.epoch.plusDays 28)] ∧
      materialize? weeklyParent (scatteredChildren ++ made) .epoch 4 (TaskId.drawn 8) = some [] ∧
      pendingAhead scatteredChildren .epoch = 2 ∧ pendingAhead (scatteredChildren ++ made) .epoch = 3 := by
  have hfits : Fits weeklyParent scatteredChildren .epoch 4 := by
    unfold Fits
    decide +kernel
  have hmade : materialize? weeklyParent scatteredChildren .epoch 4 (TaskId.drawn 7) =
      some (materialize weeklyParent scatteredChildren .epoch 4 (TaskId.drawn 7)) :=
    materialize?_eq_some_iff.mpr ⟨hfits, rfl⟩
  have hslots : (materialize weeklyParent scatteredChildren .epoch 4 (TaskId.drawn 7)).map slot =
      [(some 4, Instant.epoch.plusDays 28)] := by
    decide +kernel
  have hfew : (materialize weeklyParent scatteredChildren .epoch 4 (TaskId.drawn 7)).length <
      mostPerPass := by
    rw [← List.length_map slot, hslots]
    decide
  have hfull := (horizon_stays_full weeklyParent scatteredChildren .epoch 4 (TaskId.drawn 7)
    (TaskId.drawn 8)).1 _ hmade
  exact ⟨_, hmade, hslots, hfull.1 hfew, by decide +kernel, by decide +kernel⟩

/-- An occurrence of the bins at the last place but one, and another one that has lost its place. -/
def lateAndScattered : List Task :=
  lateChildren ++ [{ weeklyParent with
    id := TaskId.drawn 3 2
    due := Instant.epoch.plusDays 100
    parent := some weeklyParent.id }]

/-- Behind them the pass that should fill the horizon overflows. -/
theorem materialize_lateAndScattered :
    (∀ t ∈ lateAndScattered, ∀ m, t.mask = some m → m < lastPlace) ∧
    lacking weeklyParent lateAndScattered .epoch 2 = 1 ∧
    ∀ draw, materialize? weeklyParent lateAndScattered .epoch 2 draw = none := by
  have hlacking : lacking weeklyParent lateAndScattered .epoch 2 = 1 := by decide +kernel
  refine ⟨?_, hlacking, fun draw => ?_⟩
  · intro t ht m hm
    rcases List.mem_pair.mp ht with rfl | rfl
    · rw [← Option.some.inj hm]
      decide
    · exact absurd hm nofun
  · rw [materialize?_eq_none_iff]
    unfold Fits
    rw [hlacking]
    decide

end TaskSeries.Series
