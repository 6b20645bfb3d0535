/-!
Powers of two and ten, and the ranges of whole numbers that fit into a number of bits.
-/

namespace TaskSeries.Text

/-- A power of two. -/
def twoTo (n : Nat) : Nat := Nat.pow 2 n

/-- A power of ten. -/
def tenTo (n : Nat) : Nat := Nat.pow 10 n

/-- The number fits into a number of bits without a sign. -/
def FitsNat (bits : Nat) (n : Int) : Prop :=
  0 ≤ n ∧ n < twoTo bits

/-- The number fits into a number of bits, one of which is the sign. -/
def FitsInt (bits : Nat) (n : Int) : Prop :=
  -(twoTo (bits - 1) : Int) ≤ n ∧ n < twoTo (bits - 1)

instance (bits : Nat) (n : Int) : Decidable (FitsNat bits n) :=
  inferInstanceAs (Decidable (_ ∧ _))

instance (bits : Nat) (n : Int) : Decidable (FitsInt bits n) :=
  inferInstanceAs (Decidable (_ ∧ _))

end TaskSeries.Text
