import TaskSeries.Proofs.Period.Forward
import TaskSeries.Proofs.Series.Added

/-!
# Where a pass stops

The walk of a pass along a series with the reason for which it stops (`walk`); its dates are the ones
that the pass fills in (`walk_fst`). One of the reasons is a period that stands still. No period that
can be read is of that kind, in either direction, so that a pass never stops for it
(`Period.lt_advance_of_parse`).
-/

namespace TaskSeries

open TaskSeries.Calendar

namespace Series

/-- Why a pass makes no further occurrence. -/
inductive Stop
  /-- Enough of them are pending ahead of now. -/
  | enough
  /-- The next due date is out of range. -/
  | outOfRange
  /-- The period does not lead to a later date. -/
  | standstill
  /-- The next due date is later than the expiry. -/
  | expired
  /-- The pass has made as many as it may. -/
  | capped
deriving DecidableEq, Repr

/-- The dates that a pass fills in behind `last`, and why it stops behind them. -/
def walk (p : Period) (first : Instant) (expiry : Option Instant) (now : Instant)
    (horizon : Nat) : Nat → Option Instant → Nat → List Instant × Stop
  | 0, _, _ => ([], .capped)
  | n + 1, last, ahead =>
    if ahead < horizon then
      match candidate p first last 0 with
      | none => ([], .outOfRange)
      | some due =>
        if last.all (· < due) then
          if withinExpiry expiry due then
            let (dues, stop) := walk p first expiry now horizon n (some due)
              (if now < due then ahead + 1 else ahead)
            (due :: dues, stop)
          else ([], .expired)
        else ([], .standstill)
    else ([], .enough)

section
variable {p : Period} {first : Instant} {expiry : Option Instant} {now : Instant} {horizon : Nat}

lemma nextDue_eq_filter (last : Option Instant) :
    nextDue p first last = (candidate p first last 0).filter fun due => last.all (· < due) := by
  cases last with
  | none => rfl
  | some prev => simp [nextDue, candidate]

/-- The walk fills in what the pass does. -/
lemma walk_fst (cap : Nat) (last : Option Instant) (ahead : Nat) :
    (walk p first expiry now horizon cap last ahead).1 =
      missingDues p first expiry now horizon cap last ahead := by
  induction cap generalizing last ahead with
  | zero => rfl
  | succ cap ih =>
    rw [walk, missingDues, nextDue_eq_filter]
    split_ifs with hahead
    · cases candidate p first last 0 with
      | none => rfl
      | some due =>
        rw [Option.filter_some]
        by_cases hlater : last.all (· < due) = true
        · simp only [hlater, if_true]
          by_cases hwithin : withinExpiry expiry due = true
          · simp only [hwithin, if_true, ih]
          · simp only [hwithin, Bool.false_eq_true, if_false]
        · simp only [hlater]
          rfl
    · rfl

/-- A period that moves on does not let a walk stand still, wherever the walk begins. -/
lemma walk_snd_ne_standstill (hp : p.IsForward) (cap : Nat) (last : Option Instant) (ahead : Nat) :
    (walk p first expiry now horizon cap last ahead).2 ≠ .standstill := by
  induction cap generalizing last ahead with
  | zero => exact nofun
  | succ cap ih =>
    rw [walk]
    split_ifs with hahead
    · cases hcandidate : candidate p first last 0 with
      | none => exact nofun
      | some due =>
        have hlater : last.all (· < due) = true := by
          cases last with
          | none => rfl
          | some prev => exact decide_eq_true (Period.lt_advance hp hcandidate)
        simp only [hlater, if_true]
        by_cases hwithin : withinExpiry expiry due = true
        · simp only [hwithin, if_true]
          exact ih _ _
        · simp only [hwithin]
          exact nofun
    · exact nofun

end

end Series

open Series

/-- Whatever period is read leads every instant to a later one, and backwards to an earlier one. A pass
over a series with such a period stops for every other reason, but never because the period stands
still. -/
theorem Period.lt_advance_of_parse {token : String} {p : Period} (h : parse token = .ok p) :
    (∀ r later, p.advance r = some later → r < later) ∧
    (∀ r earlier, p.shift false r = some earlier → earlier < r) ∧
    ∀ (parent : Task) (children : List Task) (now : Instant) (horizon : Nat) (draw : Nat → TaskId)
      (first : Instant), parent.recur = some p → parent.due = some first →
      ∃ dues stop,
        walk p first parent.expiry now horizon mostPerPass (anchor p first children)
          (pendingAhead children now) = (dues, stop) ∧
        materialize parent children now horizon draw =
          occurrences parent now draw (nextMask children) dues ∧
        stop ≠ .standstill := by
  have hforward := isForward_of_parse h
  refine ⟨fun r later => lt_advance hforward, fun r earlier => retreat_lt hforward, ?_⟩
  intro parent children now horizon draw first hrecur hdue
  have hfst := @walk_fst p first parent.expiry now horizon mostPerPass (anchor p first children)
    (pendingAhead children now)
  have hsnd := @walk_snd_ne_standstill p first parent.expiry now horizon hforward mostPerPass
    (anchor p first children) (pendingAhead children now)
  cases hwalk : walk p first parent.expiry now horizon mostPerPass (anchor p first children)
    (pendingAhead children now) with
  | mk dues stop =>
    rw [hwalk] at hfst hsnd
    refine ⟨dues, stop, rfl, ?_, hsnd⟩
    rw [materialize_of_some hrecur hdue, ← hfst]

/-- Rent, due every month from the last day of March 1970 on. -/
def rentParent : Task :=
  { Task.fresh (TaskId.drawn 7 0) "rent" .epoch with
    due := some ⟨7689600, 0, by decide⟩
    recur := some (.calendar .month 1 false) }

/-- A month leads from 31 March to 30 April, and back to 28 February. -/
theorem Period.lt_advance_monthly :
    Period.parse "monthly" = .ok (.calendar .month 1 false) ∧
    (Period.advance (.calendar .month 1 false) ⟨7689600, 0, by decide⟩ =
        some ⟨10281600, 0, by decide⟩ ∧
      (⟨7689600, 0, by decide⟩ : Instant) < ⟨10281600, 0, by decide⟩) ∧
    (Period.shift (.calendar .month 1 false) false ⟨7689600, 0, by decide⟩ =
        some ⟨5011200, 0, by decide⟩ ∧
      (⟨5011200, 0, by decide⟩ : Instant) < ⟨7689600, 0, by decide⟩) ∧
    (rentParent.recur = some (.calendar .month 1 false) ∧
      rentParent.due = some ⟨7689600, 0, by decide⟩ ∧
      ∃ dues stop,
        walk (.calendar .month 1 false) ⟨7689600, 0, by decide⟩ rentParent.expiry .epoch 3 mostPerPass
          (anchor (.calendar .month 1 false) ⟨7689600, 0, by decide⟩ []) (pendingAhead [] .epoch) =
          (dues, stop) ∧
        materialize rentParent [] .epoch 3 (TaskId.drawn 7) =
          occurrences rentParent .epoch (TaskId.drawn 7) (nextMask []) dues ∧
        stop ≠ .standstill) := by
  have hparse : Period.parse "monthly" = .ok (.calendar .month 1 false) := rfl
  have hlater : Period.advance (.calendar .month 1 false) ⟨7689600, 0, by decide⟩ =
      some ⟨10281600, 0, by decide⟩ := by decide
  have hearlier : Period.shift (.calendar .month 1 false) false ⟨7689600, 0, by decide⟩ =
      some ⟨5011200, 0, by decide⟩ := by decide
  obtain ⟨hforward, hbackward, hstops⟩ := Period.lt_advance_of_parse hparse
  exact ⟨hparse, ⟨hlater, hforward _ _ hlater⟩, ⟨hearlier, hbackward _ _ hearlier⟩, rfl, rfl,
    hstops rentParent [] .epoch 3 (TaskId.drawn 7) _ rfl rfl⟩

end TaskSeries
