import TaskSeries.Proofs.Series.Added

/-!
# Any number of passes

A series that starts without occurrences and goes through passes at instants that never go back has
in the end the occurrences that one pass without a bound makes at the last instant, as soon as the
last pass stops of itself: `slots_afterPasses`. When the earlier passes took place, how many there
were and whether they were cut short leaves no trace.
-/

namespace TaskSeries.Series

open TaskSeries.Calendar

/-- A pass over a series: when it takes place, and the ids it draws. -/
structure Pass where
  now : Instant
  draw : Nat → TaskId

/-- The occurrences of a parent after a number of passes, in order, when there was none before. -/
def afterPasses (parent : Task) (horizon : Nat) (passes : List Pass) : List Task :=
  passes.foldl (fun children pass =>
    children ++ materialize parent children pass.now horizon pass.draw) []

/-- The occurrences that a parent without any is missing, without a bound on their number. -/
def materializeWhole (parent : Task) (horizon : Nat) (pass : Pass) : List Task :=
  match parent.recur, parent.due with
  | some p, some first =>
    occurrences parent pass.now pass.draw 0
      (wholeDues p first parent.expiry pass.now horizon none 0)
  | _, _ => []

/-- The place of an occurrence and its due date. -/
def slot (t : Task) : Option Nat × Option Instant := (t.mask, t.due)

/-- Due dates at the places from `start` on. -/
def slots (start : Nat) (dues : List Instant) : List (Option Nat × Option Instant) :=
  (dues.zipIdx start).map fun x => (some x.2, some x.1)

/-- New occurrences have consecutive places and the dates they are made for. -/
lemma map_slot_occurrences (parent : Task) (now : Instant) (draw : Nat → TaskId) (start : Nat)
    (dues : List Instant) :
    (occurrences parent now draw start dues).map slot = slots start dues := by
  apply List.ext_getElem?
  intro i
  unfold slots
  rw [List.getElem?_map, getElem?_occurrences, List.getElem?_map, List.getElem?_zipIdx]
  cases dues[i]? <;> rfl

/-- A pass over a series without occurrences makes the first part of what is missing. -/
lemma materialize_nil_eq_take (parent : Task) (horizon : Nat) (pass : Pass) :
    materialize parent [] pass.now horizon pass.draw =
      (materializeWhole parent horizon pass).take mostPerPass := by
  unfold materialize materializeWhole
  cases parent.recur with
  | none => rfl
  | some p =>
    cases parent.due with
    | none => rfl
    | some first =>
      apply List.ext_getElem?
      intro i
      show (occurrences parent pass.now pass.draw 0 (missingDues _ _ _ _ _ _ none 0))[i]? = _
      rw [missingDues_eq_take, List.getElem?_take, getElem?_occurrences, List.getElem?_take,
        getElem?_occurrences]
      split_ifs <;> rfl

/-! ## What the passes keep -/

/-- The occurrences take the places from the first one on and are due at the given dates, and for the
next pass they count as those that a walk along these dates leaves. -/
structure Follows (p : Period) (first : Instant) (children : List Task) (dues : List Instant) :
    Prop where
  slots : children.map slot = slots 0 dues
  next : nextMask children = dues.length
  anchor : anchor p first children = dues.getLast?
  ahead : ∀ now, pendingAhead children now = dues.countP (now < ·)

variable {p : Period} {first : Instant}

lemma follows_nil : Follows p first [] [] where
  slots := rfl
  next := rfl
  anchor := rfl
  ahead := fun _ => rfl

/-- Occurrences that are added for further dates follow the walk along these, too. -/
lemma Follows.append {children : List Task} {dues : List Instant} (h : Follows p first children dues)
    (parent : Task) (now : Instant) (draw : Nat → TaskId) (new : List Instant) :
    Follows p first (withOccurrences parent now draw children new) (dues ++ new) where
  slots := by
    show (children ++ _).map slot = _
    rw [List.map_append, map_slot_occurrences, h.slots, h.next]
    unfold Series.slots
    rw [List.zipIdx_append, List.map_append, Nat.zero_add]
  next := by rw [nextMask_withOccurrences, h.next, List.length_append]
  anchor := by rw [anchor_withOccurrences, h.anchor, List.getLast?_append]
  ahead := fun instant => by
    rw [pendingAhead_withOccurrences, h.ahead, List.countP_append]

/-- A pass over occurrences that follow the first part of the whole walk goes on with the rest. -/
lemma Follows.materialize_eq {children : List Task} {pre post : List Instant} {parent : Task}
    {horizon : Nat} (h : Follows p first children pre) (pass : Pass)
    (hrecur : parent.recur = some p) (hdue : parent.due = some first)
    (hwhole : wholeDues p first parent.expiry pass.now horizon none 0 = pre ++ post) :
    materialize parent children pass.now horizon pass.draw =
      occurrences parent pass.now pass.draw (nextMask children) (post.take mostPerPass) := by
  have hresume := wholeDues_resume hwhole
  rw [Nat.zero_add, Option.or_none, ← h.anchor, ← h.ahead] at hresume
  rw [materialize_of_some hrecur hdue, missingDues_eq_take, hresume]

/-- The last pass adds what it makes for the series that the others have left. -/
lemma afterPasses_concat (parent : Task) (horizon : Nat) (passes : List Pass) (pass : Pass) :
    afterPasses parent horizon (passes ++ [pass]) =
      afterPasses parent horizon passes ++
        materialize parent (afterPasses parent horizon passes) pass.now horizon pass.draw := by
  unfold afterPasses
  rw [List.foldl_append]
  rfl

/-- After any passes up to an instant, the series has a first part of what it needs at that instant. -/
lemma follows_afterPasses {parent : Task} {horizon : Nat} (hrecur : parent.recur = some p)
    (hdue : parent.due = some first) {passes : List Pass} {now : Instant}
    (hsorted : (passes.map Pass.now).Pairwise (· ≤ ·)) (hnow : ∀ pass ∈ passes, pass.now ≤ now) :
    ∃ dues, Follows p first (afterPasses parent horizon passes) dues ∧
      dues <+: wholeDues p first parent.expiry now horizon none 0 := by
  induction passes using List.reverseRecOn generalizing now with
  | nil => exact ⟨[], follows_nil, List.nil_prefix⟩
  | append_singleton passes pass ih =>
    rw [List.map_append, List.pairwise_append] at hsorted
    obtain ⟨hearlier, -, hle⟩ := hsorted
    -- the earlier passes made a first part of what is needed at this pass
    obtain ⟨dues, hfollows, post, hwhole⟩ := @ih pass.now hearlier fun earlier hmem =>
      hle earlier.now (List.mem_map_of_mem hmem) pass.now (List.mem_map_of_mem (by simp))
    refine ⟨dues ++ post.take mostPerPass, ?_, ?_⟩
    · rw [afterPasses_concat, hfollows.materialize_eq pass hrecur hdue hwhole.symm]
      exact hfollows.append parent pass.now pass.draw _
    · have hnext : dues ++ post.take mostPerPass <+:
          wholeDues p first parent.expiry pass.now horizon none 0 := by
        rw [← hwhole, List.prefix_append_right_inj]
        exact List.take_prefix _ _
      exact hnext.trans (wholeDues_grow (hnow pass (by simp)) (Nat.le_refl 0))

/-- Lazy catching up depends on nothing but the parent, the horizon and the last instant: it ends with
what one pass without a bound makes, of which one pass with the bound makes the first part. -/
theorem slots_afterPasses {parent : Task} {p : Period} {first : Instant} {horizon : Nat}
    {earlier : List Pass} {final : Pass} (hrecur : parent.recur = some p)
    (hdue : parent.due = some first)
    (hsorted : ((earlier ++ [final]).map Pass.now).Pairwise (· ≤ ·))
    (hfew : (materialize parent (afterPasses parent horizon earlier) final.now horizon
      final.draw).length < mostPerPass) :
    (afterPasses parent horizon (earlier ++ [final])).map slot =
      (materializeWhole parent horizon final).map slot ∧
    materialize parent [] final.now horizon final.draw =
      (materializeWhole parent horizon final).take mostPerPass := by
  refine ⟨?_, materialize_nil_eq_take parent horizon final⟩
  rw [List.map_append, List.pairwise_append] at hsorted
  obtain ⟨hearlier, -, hle⟩ := hsorted
  obtain ⟨dues, hfollows, post, hwhole⟩ := follows_afterPasses hrecur hdue hearlier
    fun pass hmem => hle pass.now (List.mem_map_of_mem hmem) final.now (by simp)
  have hmade := hfollows.materialize_eq final hrecur hdue hwhole.symm
  -- the last pass was not cut short, so that it made all of the rest
  have hall : post.take mostPerPass = post := by
    rw [hmade, length_occurrences, List.length_take] at hfew
    exact List.take_of_length_le (by omega)
  rw [hall] at hmade
  have hslots := (hfollows.append parent final.now final.draw post).slots
  calc (afterPasses parent horizon (earlier ++ [final])).map slot
      = (withOccurrences parent final.now final.draw (afterPasses parent horizon earlier)
          post).map slot := by rw [afterPasses_concat, hmade]; rfl
    _ = slots 0 (wholeDues p first parent.expiry final.now horizon none 0) := by
        rw [hslots, hwhole]
    _ = (materializeWhole parent horizon final).map slot := by
        unfold materializeWhole
        rw [hrecur, hdue]
        exact (map_slot_occurrences _ _ _ _ _).symm

/-- The passes of a weekly series on the first day, on the day of its second occurrence and long after
its end. Only the fifth occurrence is left to the last one, and a single pass makes all five. -/
theorem slots_afterPasses_weekly :
    let earlier := [⟨.epoch, TaskId.drawn 1⟩, ⟨⟨604800, 0, by decide⟩, TaskId.drawn 2⟩]
    let final : Pass := ⟨⟨6048000, 0, by decide⟩, TaskId.drawn 3⟩
    let all := (List.range 5).map fun i : Nat => (some i, Instant.epoch.plusDays (7 * i))
    (weeklyParent.recur = some (.calendar .week 1 false) ∧ weeklyParent.due = some .epoch ∧
      ((earlier ++ [final]).map Pass.now).Pairwise (· ≤ ·) ∧
      (materialize weeklyParent (afterPasses weeklyParent 2 earlier) final.now 2
        final.draw).length < mostPerPass) ∧
    (afterPasses weeklyParent 2 earlier).map slot = all.take 4 ∧
    (afterPasses weeklyParent 2 (earlier ++ [final])).map slot = all ∧
    (materializeWhole weeklyParent 2 final).map slot = all := by
  intro earlier final all
  have hsorted : ((earlier ++ [final]).map Pass.now).Pairwise (· ≤ ·) := by decide
  have hfew : (materialize weeklyParent (afterPasses weeklyParent 2 earlier) final.now 2
      final.draw).length < mostPerPass := by decide +kernel
  have hall : (afterPasses weeklyParent 2 (earlier ++ [final])).map slot = all := by decide +kernel
  have hsame := (slots_afterPasses (rfl : weeklyParent.recur = some (.calendar .week 1 false)) rfl
    hsorted hfew).1
  exact ⟨⟨rfl, rfl, hsorted, hfew⟩, by decide +kernel, hall, hsame.symm.trans hall⟩

end TaskSeries.Series
