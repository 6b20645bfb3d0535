import TaskSeries.Task.Id
import TaskSeries.Text.Power

/-!
Drawing task identifiers from a random seed.
-/

namespace TaskSeries

open TaskSeries.Text

namespace TaskId

/-- The last hexadecimal digit of a number. -/
def lastDigit (n : Nat) : Fin 16 :=
  ⟨n % 16, Nat.mod_lt n (by decide)⟩

/-- The last hexadecimal digits of a number, the given count of them. -/
def lastDigits (count n : Nat) : List (Fin 16) :=
  (List.range count).reverse.map fun i => lastDigit (n / twoTo (4 * i))

/-- The count is met. -/
theorem length_lastDigits (count n : Nat) : (lastDigits count n).length = count := by
  simp [lastDigits]

/-- The distance between the numbers of two ids drawn one after the other. It is odd, so that no number
comes twice before all of 122 bits are used up. -/
def stride : Nat := 0x9E3779B97F4A7C15F39CC0605CEDC9

/-- The id that is drawn at a place from a seed: 122 bits, with the marks of a random id in the places
kept for them. -/
def drawn (seed place : Nat) : TaskId where
  digits :=
    let n := (seed + place * stride) % twoTo 122
    lastDigits 12 (n / twoTo 74) ++ lastDigit 4 :: lastDigits 3 (n / twoTo 62)
      ++ lastDigit (8 + n / twoTo 60 % 4) :: lastDigits 15 n
  length_digits := by simp [length_lastDigits]

end TaskId

end TaskSeries
