import Mathlib.Tactic.Set
import TaskSeries.Proofs.Series.Counting
import TaskSeries.Task.Draw

/-!
# The reference series

The occurrences that a pass makes, described without the loop that makes them. The *candidates* of a
series are the dates that its period gives one after another behind the latest occurrence. A pass
makes the longest run of candidates at the beginning that are all missing, `IsMissing` saying what
that takes of a single one.
-/

namespace TaskSeries.Series

open TaskSeries.Calendar

section
variable (p : Period) (first : Instant) (last : Option Instant)

/-! ## Candidates -/

/-- The candidates of a series that goes on behind `last`: the first due date where there is no last
one, and one period after another from there on. -/
def candidate : Nat → Option Instant
  | 0 =>
    match last with
    | none => some first
    | some due => p.advance due
  | i + 1 => (candidate i).bind p.advance

/-- The date in front of a candidate. -/
def preceding : Nat → Option Instant
  | 0 => last
  | i + 1 => candidate p first last i

/-- How many candidates in front of one are later than now. -/
def aheadBefore (now : Instant) (i : Nat) : Nat :=
  (List.range i).countP fun j => (candidate p first last j).any (now < ·)

/-- The candidate at place `i` exists and is an occurrence that `ahead` pending ones leave missing. -/
structure IsMissing (expiry : Option Instant) (now : Instant) (horizon cap ahead i : Nat)
    (due : Instant) : Prop where
  candidate : candidate p first last i = some due
  later : ∀ prev, preceding p first last i = some prev → prev < due
  within : ∀ e, expiry = some e → due ≤ e
  capped : i < cap
  room : ahead + aheadBefore p first last now i < horizon

end

section
variable {p : Period} {first : Instant} {last : Option Instant} {due : Instant}

/-- A date is within the expiry when there is none or it is not later. -/
lemma withinExpiry_iff (expiry : Option Instant) (due : Instant) :
    withinExpiry expiry due = true ↔ ∀ e, expiry = some e → due ≤ e := by
  cases expiry with
  | none => simp [withinExpiry]
  | some e => simp [withinExpiry]

/-- The next due date is the first candidate, when that is later than the last date. -/
lemma nextDue_eq_some_iff :
    nextDue p first last = some due ↔
      candidate p first last 0 = some due ∧ ∀ prev, last = some prev → prev < due := by
  cases last with
  | none => simp [nextDue, candidate]
  | some prev => simp [nextDue, candidate, Option.filter_eq_some_iff]

/-! ## One step along the series -/

/-- Behind the first candidate the others are those of the series that goes on there. -/
lemma candidate_step (h : nextDue p first last = some due) (i : Nat) :
    candidate p first (some due) i = candidate p first last (i + 1) := by
  have hzero := (nextDue_eq_some_iff.mp h).1
  induction i with
  | zero =>
    show p.advance due = (candidate p first last 0).bind p.advance
    rw [hzero, Option.bind_some]
  | succ i ih =>
    show (candidate p first (some due) i).bind p.advance = _
    rw [ih]
    rfl

lemma preceding_step (h : nextDue p first last = some due) (i : Nat) :
    preceding p first (some due) i = preceding p first last (i + 1) := by
  cases i with
  | zero => exact (nextDue_eq_some_iff.mp h).1.symm
  | succ i => exact candidate_step h i

/-- The first candidate counts among those ahead if it is later than now. -/
lemma aheadBefore_step (h : nextDue p first last = some due) (now : Instant) (i : Nat) :
    aheadBefore p first last now (i + 1) =
      aheadBefore p first (some due) now i + if now < due then 1 else 0 := by
  have hzero := (nextDue_eq_some_iff.mp h).1
  unfold aheadBefore
  rw [List.range_succ_eq_map, List.countP_cons, List.countP_map]
  have hshift : (fun j => (candidate p first last j).any (now < ·)) ∘ Nat.succ
      = fun j => (candidate p first (some due) j).any (now < ·) := by
    funext j
    show (candidate p first last (j + 1)).any (now < ·) = _
    rw [candidate_step h]
  rw [hshift, hzero]
  simp

/-- Behind its first candidate, a series is the one that goes on behind that candidate. -/
lemma isMissing_step {expiry : Option Instant} {now : Instant} {horizon cap ahead i : Nat}
    {d : Instant} (h : nextDue p first last = some due) :
    IsMissing p first last expiry now horizon (cap + 1) ahead (i + 1) d ↔
      IsMissing p first (some due) expiry now horizon cap
        (if now < due then ahead + 1 else ahead) i d := by
  have hroom : ahead + aheadBefore p first last now (i + 1) =
      (if now < due then ahead + 1 else ahead) + aheadBefore p first (some due) now i := by
    rw [aheadBefore_step h]
    split_ifs <;> omega
  constructor
  · rintro ⟨hc, hlater, hwithin, hcap, hr⟩
    rw [← candidate_step h] at hc
    rw [← preceding_step h] at hlater
    rw [hroom] at hr
    exact ⟨hc, hlater, hwithin, by omega, hr⟩
  · rintro ⟨hc, hlater, hwithin, hcap, hr⟩
    rw [candidate_step h] at hc
    rw [preceding_step h] at hlater
    rw [← hroom] at hr
    exact ⟨hc, hlater, hwithin, by omega, hr⟩

/-- The first candidate is missing exactly when the loop makes it. -/
lemma isMissing_zero {expiry : Option Instant} {now : Instant} {horizon cap ahead : Nat} :
    IsMissing p first last expiry now horizon cap ahead 0 due ↔
      nextDue p first last = some due ∧ withinExpiry expiry due = true ∧ 0 < cap ∧
        ahead < horizon := by
  rw [nextDue_eq_some_iff, withinExpiry_iff]
  constructor
  · rintro ⟨hc, hlater, hwithin, hcap, hroom⟩
    exact ⟨⟨hc, hlater⟩, hwithin, hcap, hroom⟩
  · rintro ⟨⟨hc, hlater⟩, hwithin, hcap, hroom⟩
    exact ⟨hc, hlater, hwithin, hcap, hroom⟩

end

/-! ## The loop and the reference series -/

/-- The dates that the loop gives are missing, every one of them, and the candidate behind the last
one is not. -/
lemma missingDues_spec (p : Period) (first : Instant) (expiry : Option Instant) (now : Instant)
    (horizon cap : Nat) (last : Option Instant) (ahead : Nat) :
    (∀ i due, (missingDues p first expiry now horizon cap last ahead)[i]? = some due →
        IsMissing p first last expiry now horizon cap ahead i due) ∧
      ∀ due, ¬ IsMissing p first last expiry now horizon cap ahead
        (missingDues p first expiry now horizon cap last ahead).length due := by
  -- on the bound: behind its first date the loop is the one for the series that goes on there
  induction cap generalizing last ahead with
  | zero =>
    refine ⟨fun i due h => ?_, fun due h => ?_⟩
    · simp [missingDues] at h
    · exact absurd h.capped (Nat.not_lt_zero _)
  | succ cap ih =>
    rw [missingDues]
    by_cases hahead : ahead < horizon
    · rw [if_pos hahead]
      cases hnext : nextDue p first last with
      | none =>
        refine ⟨fun i due h => by simp at h, fun due h => ?_⟩
        rw [List.length_nil, isMissing_zero, hnext] at h
        exact absurd h.1 (by simp)
      | some due =>
        by_cases hwithin : withinExpiry expiry due = true
        · simp only [hwithin, if_true]
          obtain ⟨hall, hend⟩ := ih (some due) (if now < due then ahead + 1 else ahead)
          refine ⟨fun i d h => ?_, fun d h => ?_⟩
          · cases i with
            | zero =>
              rw [List.getElem?_cons_zero] at h
              rw [isMissing_zero]
              exact ⟨hnext.trans h, by rw [← Option.some.inj h]; exact hwithin, by omega, hahead⟩
            | succ i =>
              rw [List.getElem?_cons_succ] at h
              exact (isMissing_step hnext).mpr (hall i d h)
          · rw [List.length_cons, isMissing_step hnext] at h
            exact hend d h
        · simp only [hwithin]
          refine ⟨fun i d h => by simp at h, fun d h => ?_⟩
          simp only [Bool.false_eq_true, if_false] at h
          rw [List.length_nil, isMissing_zero, hnext] at h
          obtain ⟨heq, hw, -⟩ := h
          rw [Option.some.inj heq] at hwithin
          exact hwithin hw
    · rw [if_neg hahead]
      refine ⟨fun i due h => by simp at h, fun due h => ?_⟩
      rw [List.length_nil, isMissing_zero] at h
      exact hahead h.2.2.2

/-! ## Occurrences -/

/-- The occurrence at a position is made for the date there, with the id and the place of the position.
-/
lemma getElem?_occurrences (parent : Task) (now : Instant) (draw : Nat → TaskId) (start : Nat)
    (dues : List Instant) (i : Nat) :
    (occurrences parent now draw start dues)[i]? =
      dues[i]?.map fun due => occurrence parent (draw i) due (start + i) now := by
  unfold occurrences
  rw [List.getElem?_map, List.getElem?_zipIdx, Option.map_map]
  cases dues[i]? with
  | none => rfl
  | some due =>
    rw [Option.map_some, Option.map_some, Nat.zero_add]
    rfl

/-- The date from which a series goes on, where it is known: none as long as no occurrence has a
place, and otherwise the due date of the latest one. -/
inductive Anchored (children : List Task) : Option Instant → Prop
  | unplaced (h : ∀ c ∈ children, c.mask = none) : Anchored children none
  | latest {t : Task} {due : Instant} (h : IsLatest children t) (hdue : t.due = some due) :
    Anchored children (some due)

/-- Where the date to go on from is known, a pass finds it. -/
lemma Anchored.anchor_eq {children : List Task} {last : Option Instant} (h : Anchored children last)
    (p : Period) (first : Instant) : anchor p first children = last := by
  unfold anchor
  cases h with
  | unplaced h => rw [latest_eq_none_iff.mpr h]
  | latest h hdue =>
    rw [latest_eq_some_iff.mpr h]
    show (_ <|> _) = _
    rw [hdue]
    rfl

/-- A pass makes the longest run of missing candidates at the beginning of the reference series. Each
is a pending copy of the parent that was entered now and takes the next place. The pass overflows exactly
when these places and the one behind them do not fit into 32 bits. -/
theorem materialize_eq_longest_run {parent : Task} {p : Period} {first : Instant}
    {children : List Task} {last : Option Instant} (now : Instant) (horizon : Nat)
    (draw : Nat → TaskId) (hrecur : parent.recur = some p) (hdue : parent.due = some first)
    (hlast : Anchored children last) :
    ∃ n,
      (∀ i < n, ∃ due, IsMissing p first last parent.expiry now horizon mostPerPass
        (pendingAhead children now) i due) ∧
      (¬ ∃ due, IsMissing p first last parent.expiry now horizon mostPerPass
        (pendingAhead children now) n due) ∧
      materialize? parent children now horizon draw =
        if nextMask children + n ≤ lastPlace then
          some ((List.range n).map fun i =>
            { id := draw i
              description := parent.description
              status := .pending
              project := parent.project
              priority := parent.priority
              tags := parent.tags
              entry := now
              modified := now
              finished := none
              due := candidate p first last i
              expiry := parent.expiry
              recur := parent.recur
              parent := some parent.id
              mask := some (nextMask children + i) })
        else none := by
  obtain ⟨hall, hend⟩ := missingDues_spec p first parent.expiry now horizon mostPerPass last
    (pendingAhead children now)
  set dues := missingDues p first parent.expiry now horizon mostPerPass last
    (pendingAhead children now) with hdues
  have hmade : ∀ draw', materialize parent children now horizon draw' =
      occurrences parent now draw' (nextMask children) dues := by
    intro draw'
    rw [materialize_of_some hrecur hdue, hlast.anchor_eq, ← hdues]
  have hlacking : lacking parent children now horizon = dues.length := by
    unfold lacking
    rw [hmade, length_occurrences]
  refine ⟨dues.length, fun i hi => ?_, fun ⟨due, h⟩ => hend due h, ?_⟩
  · exact ⟨dues[i], hall i dues[i] (List.getElem?_eq_getElem hi)⟩
  · rw [materialize?_of_some hrecur hdue, hlacking, hmade]
    refine ite_congr rfl (fun _ => congrArg some ?_) fun _ => rfl
    apply List.ext_getElem?
    intro i
    rw [getElem?_occurrences, List.getElem?_map]
    by_cases hi : i < dues.length
    · have hcandidate := (hall i dues[i] (List.getElem?_eq_getElem hi)).candidate
      rw [List.getElem?_eq_getElem hi, List.getElem?_range hi, Option.map_some, Option.map_some,
        hcandidate]
      rfl
    · rw [List.getElem?_eq_none (by omega), List.getElem?_eq_none (by simpa using hi)]
      rfl

/-- Taking out the bins: every week from the beginning of 1970 on, for four weeks. -/
def weeklyParent : Task :=
  { Task.fresh ⟨List.replicate 32 (TaskId.lastDigit 0), rfl⟩ "bins" .epoch with
    due := some .epoch
    expiry := Instant.epoch.plusDays 28
    recur := some (.calendar .week 1 false) }

/-- The second occurrence of the bins, deleted, with the first one behind it. -/
def weeklyChildren : List Task :=
  [{ weeklyParent with
      id := ⟨List.replicate 32 (TaskId.lastDigit 2), rfl⟩
      status := .deleted
      due := Instant.epoch.plusDays 7
      parent := some weeklyParent.id
      mask := some 1 },
    { weeklyParent with
      id := ⟨List.replicate 32 (TaskId.lastDigit 1), rfl⟩
      parent := some weeklyParent.id
      mask := some 0 }]

/-- The weekly candidates behind the deleted occurrence are made up to the expiry, at the places behind. -/
theorem materialize_weekly_longest_run :
    (weeklyParent.recur = some (.calendar .week 1 false) ∧ weeklyParent.due = some .epoch ∧
      Anchored weeklyChildren (Instant.of? 604800 0)) ∧
    materialize? weeklyParent weeklyChildren .epoch 4 (TaskId.drawn 7) =
      some ((List.range 3).map fun i =>
        { weeklyParent with
          id := TaskId.drawn 7 i
          due := Instant.epoch.plusDays (14 + 7 * i)
          parent := some weeklyParent.id
          mask := some (2 + i) }) := by
  have hlast : Anchored weeklyChildren (Instant.of? 604800 0) :=
    .latest (t := weeklyChildren[0]) ⟨1, [], weeklyChildren.tail, rfl, rfl, by simp,
      by simp [weeklyChildren]⟩ (by decide)
  obtain ⟨n, hall, hend, hmade⟩ := materialize_eq_longest_run .epoch 4 (TaskId.drawn 7)
    (rfl : weeklyParent.recur = some (.calendar .week 1 false)) rfl hlast
  have hmissing : ∀ i < 3, ∃ due, IsMissing (.calendar .week 1 false) .epoch (Instant.of? 604800 0)
      weeklyParent.expiry .epoch 4 mostPerPass (pendingAhead weeklyChildren .epoch) i due := by
    intro i hi
    have hcases : i = 0 ∨ i = 1 ∨ i = 2 := by omega
    rcases hcases with rfl | rfl | rfl
    · exact ⟨⟨1209600, 0, by decide⟩, by decide, by decide, by decide, by decide, by decide⟩
    · exact ⟨⟨1814400, 0, by decide⟩, by decide, by decide, by decide, by decide, by decide⟩
    · exact ⟨⟨2419200, 0, by decide⟩, by decide, by decide, by decide, by decide, by decide⟩
  -- the fourth candidate is later than the expiry
  have hn : n = 3 := by
    have hle : ¬ 3 < n := fun hlt => by
      obtain ⟨due, hmiss⟩ := hall 3 hlt
      have hdue : (⟨3024000, 0, by decide⟩ : Instant) = due := Option.some.inj hmiss.candidate
      have hwithin := hmiss.within ⟨2419200, 0, by decide⟩ rfl
      rw [← hdue] at hwithin
      exact absurd hwithin (by decide)
    have hge : ¬ n < 3 := fun hlt => hend (hmissing n hlt)
    omega
  rw [hn] at hmade
  exact ⟨⟨rfl, rfl, hlast⟩, hmade⟩

/-- An occurrence of the bins at the last place but one. -/
def lateChildren : List Task :=
  [{ weeklyParent with
      id := ⟨List.replicate 32 (TaskId.lastDigit 1), rfl⟩
      status := .completed
      due := Instant.epoch.plusDays 7
      parent := some weeklyParent.id
      mask := some 4294967294 }]

/-- Behind it one more occurrence is missing, for which the last place is free, but a pass overflows. -/
theorem materialize_behindLateChildren :
    (weeklyParent.recur = some (.calendar .week 1 false) ∧ weeklyParent.due = some .epoch ∧
      Anchored lateChildren (Instant.of? 604800 0) ∧
      ∀ t ∈ lateChildren, ∀ m, t.mask = some m → m < lastPlace) ∧
    nextMask lateChildren = lastPlace ∧
    (∃ due, IsMissing (.calendar .week 1 false) .epoch (Instant.of? 604800 0) weeklyParent.expiry .epoch 1
      mostPerPass (pendingAhead lateChildren .epoch) 0 due) ∧
    materialize? weeklyParent lateChildren .epoch 1 (TaskId.drawn 7) = none := by
  have hlast : Anchored lateChildren (Instant.of? 604800 0) :=
    .latest (t := lateChildren[0]) ⟨4294967294, [], [], rfl, rfl, by simp, by simp⟩ (by decide)
  refine ⟨⟨rfl, rfl, hlast, ?_⟩, by decide, ?_, by decide +kernel⟩
  · rintro t ht m hm
    rw [List.mem_singleton.mp ht] at hm
    rw [← Option.some.inj hm]
    decide
  · exact ⟨⟨1209600, 0, by decide⟩, by decide, by decide, by decide, by decide, by decide⟩

end TaskSeries.Series
