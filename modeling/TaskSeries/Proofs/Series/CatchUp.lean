import Mathlib.Data.List.Infix
import TaskSeries.Proofs.Calendar.Rank
import TaskSeries.Proofs.Series.Reference

/-!
# Catching up

A pass makes a bounded number of occurrences. `wholeDues` is the walk of a pass without that bound; it
ends because the dates of a series grow and their range does not. A bounded pass makes the first part
of it (`missingDues_eq_take`), the next pass goes on where it stopped (`wholeDues_resume`), and a later
instant never asks for less (`wholeDues_grow`). Together these say that the occurrences of a series
do not depend on when the passes took place: `slots_afterPasses`.
-/

namespace TaskSeries.Series

open TaskSeries.Calendar

/-! ## The walk without a bound -/

/-- What is left of the range of instants behind a date. -/
def room : Option Instant → Nat
  | none => (2000000000 * (lastSecond + 1 - firstSecond)).toNat + 1
  | some due => (2000000000 * (lastSecond + 1) - due.rank).toNat

/-- A due date leaves less room than the one before it. -/
lemma room_lt {p : Period} {first due : Instant} {last : Option Instant}
    (h : nextDue p first last = some due) : room (some due) < room last := by
  have hbounds := due.rank_bounds
  cases last with
  | none =>
    simp only [room]
    omega
  | some prev =>
    have hlater := (nextDue_eq_some_iff.mp h).2 prev rfl
    rw [Instant.lt_iff_rank_lt] at hlater
    simp only [room]
    omega

section
variable (p : Period) (first : Instant) (expiry : Option Instant) (now : Instant) (horizon : Nat)

/-- The due dates of all occurrences that are missing behind `last`, when `ahead` of them are pending
ahead of now already. -/
def wholeDues (last : Option Instant) (ahead : Nat) : List Instant :=
  if ahead < horizon then
    match h : nextDue p first last with
    | none => []
    | some due =>
      if withinExpiry expiry due then
        due :: wholeDues (some due) (if now < due then ahead + 1 else ahead)
      else []
  else []
termination_by room last
decreasing_by exact room_lt h

end

section
variable {p : Period} {first : Instant} {expiry : Option Instant} {now : Instant} {horizon : Nat}
  {last : Option Instant} {ahead : Nat}

/-- The walk goes on with the next due date as long as too few are ahead and the expiry is not passed. -/
lemma wholeDues_of_next {due : Instant} (hahead : ahead < horizon)
    (hnext : nextDue p first last = some due) (hwithin : withinExpiry expiry due = true) :
    wholeDues p first expiry now horizon last ahead =
      due :: wholeDues p first expiry now horizon (some due)
        (if now < due then ahead + 1 else ahead) := by
  rw [wholeDues, if_pos hahead]
  split
  · rename_i hnone
    rw [hnone] at hnext
    exact absurd hnext (by simp)
  · rename_i d hd
    rw [hd] at hnext
    rw [Option.some.inj hnext, if_pos hwithin]

/-- Nothing is missing exactly when enough is ahead, or the series ends here. -/
lemma wholeDues_eq_nil_iff :
    wholeDues p first expiry now horizon last ahead = [] ↔
      ∀ due, nextDue p first last = some due → withinExpiry expiry due = true → horizon ≤ ahead := by
  constructor
  · intro h due hnext hwithin
    by_contra hlt
    rw [wholeDues_of_next (by omega) hnext hwithin] at h
    exact absurd h (List.cons_ne_nil _ _)
  · intro h
    rw [wholeDues]
    split
    · split
      · rfl
      · rename_i hahead due hnext
        split
        · rename_i hwithin
          have := h due hnext hwithin
          omega
        · rfl
    · rfl

/-- The first date of a walk is the next due date, and the rest is the walk behind it. -/
lemma wholeDues_eq_cons_iff {due : Instant} {rest : List Instant} :
    wholeDues p first expiry now horizon last ahead = due :: rest ↔
      ahead < horizon ∧ nextDue p first last = some due ∧ withinExpiry expiry due = true ∧
        wholeDues p first expiry now horizon (some due)
          (if now < due then ahead + 1 else ahead) = rest := by
  constructor
  · intro h
    by_cases hend : ∀ due, nextDue p first last = some due → withinExpiry expiry due = true →
        horizon ≤ ahead
    · rw [wholeDues_eq_nil_iff.mpr hend] at h
      exact absurd h.symm (List.cons_ne_nil _ _)
    · push Not at hend
      obtain ⟨d, hnext, hwithin, hahead⟩ := hend
      rw [wholeDues_of_next hahead hnext hwithin] at h
      obtain ⟨rfl, hrest⟩ := List.cons.inj h
      exact ⟨hahead, hnext, hwithin, hrest⟩
  · rintro ⟨hahead, hnext, hwithin, hrest⟩
    rw [wholeDues_of_next hahead hnext hwithin, hrest]

/-- A bounded walk gives the first part of the whole one. -/
lemma missingDues_eq_take (cap : Nat) :
    missingDues p first expiry now horizon cap last ahead =
      (wholeDues p first expiry now horizon last ahead).take cap := by
  induction cap generalizing last ahead with
  | zero => rw [missingDues, List.take_zero]
  | succ cap ih =>
    cases hwhole : wholeDues p first expiry now horizon last ahead with
    | nil =>
      rw [wholeDues_eq_nil_iff] at hwhole
      rw [missingDues, List.take_nil]
      by_cases hahead : ahead < horizon
      · rw [if_pos hahead]
        cases hnext : nextDue p first last with
        | none => rfl
        | some due =>
          have hout : ¬ withinExpiry expiry due = true := fun hwithin => by
            have := hwhole due hnext hwithin
            omega
          simp only [if_neg hout]
      · rw [if_neg hahead]
    | cons due rest =>
      obtain ⟨hahead, hnext, hwithin, hrest⟩ := wholeDues_eq_cons_iff.mp hwhole
      rw [missingDues, if_pos hahead, hnext]
      simp only [if_pos hwithin]
      rw [ih, hrest, List.take_succ_cons]

/-- The walk that goes on behind its own first part gives the rest. -/
lemma wholeDues_resume {pre post : List Instant}
    (h : wholeDues p first expiry now horizon last ahead = pre ++ post) :
    wholeDues p first expiry now horizon (pre.getLast?.or last)
      (ahead + pre.countP (now < ·)) = post := by
  -- on the first part: each of its dates is the last one when the walk comes to the next
  induction pre generalizing last ahead with
  | nil => simpa using h
  | cons due pre ih =>
    obtain ⟨-, -, -, hrest⟩ := wholeDues_eq_cons_iff.mp h
    have hlast : (due :: pre).getLast?.or last = pre.getLast?.or (some due) := by
      rw [List.getLast?_cons]
      cases pre.getLast? <;> rfl
    have hahead : ahead + (due :: pre).countP (now < ·) =
        (if now < due then ahead + 1 else ahead) + pre.countP (now < ·) := by
      rw [List.countP_cons]
      simp only [decide_eq_true_eq]
      split_ifs <;> omega
    rw [hlast, hahead]
    exact ih hrest

/-- A later instant, or fewer occurrences ahead, asks for no fewer occurrences. -/
lemma wholeDues_grow {now' : Instant} {ahead' : Nat} (hnow : now ≤ now') (hahead : ahead' ≤ ahead) :
    wholeDues p first expiry now horizon last ahead <+:
      wholeDues p first expiry now' horizon last ahead' := by
  generalize hdues : wholeDues p first expiry now horizon last ahead = dues
  -- on the dates that are asked for now; the later walk has no more ahead at any of them
  induction dues generalizing last ahead ahead' with
  | nil => exact List.nil_prefix
  | cons due rest ih =>
    obtain ⟨hroom, hnext, hwithin, hrest⟩ := wholeDues_eq_cons_iff.mp hdues
    rw [wholeDues_of_next (by omega) hnext hwithin, List.cons_prefix_cons]
    refine ⟨rfl, ih ?_ hrest⟩
    split_ifs with hlate hearly
    · omega
    · exact absurd (Instant.lt_of_le_of_lt hnow hlate) hearly
    · omega
    · omega

/-- A pass that stops of itself leaves nothing missing. -/
lemma missingDues_resume {cap : Nat} (cap' : Nat)
    (hfew : (missingDues p first expiry now horizon cap last ahead).length < cap) :
    missingDues p first expiry now horizon cap'
      ((missingDues p first expiry now horizon cap last ahead).getLast?.or last)
      (ahead + (missingDues p first expiry now horizon cap last ahead).countP (now < ·)) = [] := by
  have hmade : missingDues p first expiry now horizon cap last ahead =
      wholeDues p first expiry now horizon last ahead := by
    rw [missingDues_eq_take, List.length_take] at hfew
    rw [missingDues_eq_take, List.take_of_length_le (by omega)]
  rw [hmade, missingDues_eq_take, wholeDues_resume (List.append_nil _).symm, List.take_nil]

end

end TaskSeries.Series
