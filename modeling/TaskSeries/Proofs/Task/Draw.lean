import Mathlib.Data.List.Nodup
import Mathlib.Data.Nat.ModEq
import Mathlib.Tactic.Lemma
import TaskSeries.Task.Draw

/-!
# Drawn ids do not repeat

An id keeps the 122 bits of the number it is drawn from, and the numbers that are drawn one after
another from a seed go through all residues before one comes again. The first ids from a seed are
therefore pairwise distinct, up to the number of ids there are (`TaskId.drawn_injective`).
-/

namespace TaskSeries.TaskId

open TaskSeries.Text

/-- The last digits determine the number that they can spell. -/
lemma mod_eq_of_lastDigits_eq {count n m : Nat} (h : lastDigits count n = lastDigits count m) :
    n % twoTo (4 * count) = m % twoTo (4 * count) := by
  induction count with
  | zero =>
    show n % 1 = m % 1
    omega
  | succ count ih =>
    have hcons : ∀ k, lastDigits (count + 1) k =
        lastDigit (k / twoTo (4 * count)) :: lastDigits count k := by
      intro k
      unfold lastDigits
      rw [List.range_succ, List.reverse_append]
      rfl
    rw [hcons, hcons] at h
    obtain ⟨hhead, htail⟩ := List.cons.inj h
    have hdigit : n / twoTo (4 * count) % 16 = m / twoTo (4 * count) % 16 := Fin.mk.inj hhead
    have hpower : twoTo (4 * (count + 1)) = twoTo (4 * count) * 16 :=
      Nat.pow_add 2 (4 * count) 4
    rw [hpower, Nat.mod_mul, Nat.mod_mul, ih htail, hdigit]

/-- An id determines the number that it was drawn from. -/
lemma drawn_digits_injective {n m : Nat} (hn : n < twoTo 122) (hm : m < twoTo 122)
    (h : lastDigits 12 (n / twoTo 74) ++ lastDigit 4 :: lastDigits 3 (n / twoTo 62)
        ++ lastDigit (8 + n / twoTo 60 % 4) :: lastDigits 15 n =
      lastDigits 12 (m / twoTo 74) ++ lastDigit 4 :: lastDigits 3 (m / twoTo 62)
        ++ lastDigit (8 + m / twoTo 60 % 4) :: lastDigits 15 m) : n = m := by
  obtain ⟨hfront, hback⟩ := List.append_inj h (by simp [length_lastDigits])
  obtain ⟨htop, hmiddle⟩ := List.append_inj hfront (by simp [length_lastDigits])
  have hhigh := mod_eq_of_lastDigits_eq htop
  have hmid := mod_eq_of_lastDigits_eq (List.cons.inj hmiddle).2
  have hlow := mod_eq_of_lastDigits_eq (List.cons.inj hback).2
  have hmark : (8 + n / twoTo 60 % 4) % 16 = (8 + m / twoTo 60 % 4) % 16 :=
    Fin.mk.inj (List.cons.inj hback).1
  -- bits 74 to 121, 62 to 73 and 0 to 59 are spelled as they are, and two more in the digit between
  rw [show twoTo (4 * 12) = 281474976710656 from rfl] at hhigh
  rw [show twoTo (4 * 3) = 4096 from rfl] at hmid
  rw [show twoTo (4 * 15) = 1152921504606846976 from rfl] at hlow
  rw [show twoTo 60 = 1152921504606846976 from rfl] at hmark
  rw [show twoTo 62 = 4611686018427387904 from rfl] at hmid
  rw [show twoTo 74 = 18889465931478580854784 from rfl] at hhigh
  rw [show twoTo 122 = 5316911983139663491615228241121378304 from rfl] at hn hm
  omega

/-- No id comes twice before all 122 bits are used up. -/
lemma drawn_injective {seed i j : Nat} (hi : i < twoTo 122) (hj : j < twoTo 122)
    (h : drawn seed i = drawn seed j) : i = j := by
  have hpos : 0 < twoTo 122 := by decide
  have hnumber := drawn_digits_injective (Nat.mod_lt _ hpos) (Nat.mod_lt _ hpos)
    (congrArg TaskId.digits h)
  have hmul : i * stride ≡ j * stride [MOD twoTo 122] := Nat.ModEq.add_left_cancel' seed hnumber
  have hmod : i ≡ j [MOD twoTo 122] := hmul.cancel_right_of_coprime (by decide)
  rwa [Nat.ModEq, Nat.mod_eq_of_lt hi, Nat.mod_eq_of_lt hj] at hmod

lemma nodup_map_drawn (seed : Nat) {n : Nat} (hn : n ≤ twoTo 122) :
    ((List.range n).map (drawn seed)).Nodup := by
  refine List.Nodup.map_on (fun i hi j hj h => ?_) List.nodup_range
  rw [List.mem_range] at hi hj
  exact drawn_injective (by omega) (by omega) h

end TaskSeries.TaskId
