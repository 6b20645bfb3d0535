import Mathlib.Tactic.Lemma
import TaskSeries.Calendar.Instant

/-!
# Instants as whole numbers

The order of instants is the order of their ranks: the seconds and the nanoseconds of an instant
folded into one whole number. A second holds fewer than two thousand million nanoseconds, leap
seconds included, so that the nanoseconds never reach into the next second.
-/

namespace TaskSeries.Calendar.Instant

/-- The place of an instant on the line of all instants. -/
def rank (i : Instant) : Int := 2000000000 * i.second + i.nano

/-! ## Bounds -/

lemma nano_lt (i : Instant) : i.nano < 2000000000 := by
  obtain ⟨-, -, h⟩ := i.representable
  omega

/-- Every rank lies between those of the ends of the range. -/
lemma rank_bounds (i : Instant) :
    2000000000 * firstSecond ≤ i.rank ∧ i.rank < 2000000000 * (lastSecond + 1) := by
  obtain ⟨hfirst, hlast, -⟩ := i.representable
  have hnano := i.nano_lt
  unfold rank
  omega

/-! ## The order -/

/-- The order of instants is that of their ranks. -/
lemma lt_iff_rank_lt (a b : Instant) : a < b ↔ a.rank < b.rank := by
  have ha := a.nano_lt
  have hb := b.nano_lt
  show a.second < b.second ∨ a.second = b.second ∧ a.nano < b.nano ↔ _
  unfold rank
  omega

lemma le_iff_rank_le (a b : Instant) : a ≤ b ↔ a.rank ≤ b.rank := by
  show ¬ b < a ↔ _
  rw [lt_iff_rank_lt]
  omega

lemma lt_irrefl (a : Instant) : ¬ a < a := by
  rw [lt_iff_rank_lt]
  omega

lemma lt_trans {a b c : Instant} (hab : a < b) (hbc : b < c) : a < c := by
  rw [lt_iff_rank_lt] at hab hbc ⊢
  omega

lemma lt_of_le_of_lt {a b c : Instant} (hab : a ≤ b) (hbc : b < c) : a < c := by
  rw [lt_iff_rank_lt] at hbc ⊢
  rw [le_iff_rank_le] at hab
  omega

lemma lt_of_lt_of_le {a b c : Instant} (hab : a < b) (hbc : b ≤ c) : a < c := by
  rw [lt_iff_rank_lt] at hab ⊢
  rw [le_iff_rank_le] at hbc
  omega

lemma le_trans {a b c : Instant} (hab : a ≤ b) (hbc : b ≤ c) : a ≤ c := by
  rw [le_iff_rank_le] at hab hbc ⊢
  omega

end TaskSeries.Calendar.Instant
