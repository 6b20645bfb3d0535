import TaskSeries.Text.Decimal
import TaskSeries.Text.Power

/-!
Decimal fractions as a computer holds them: every quantity is kept as the ratio of two whole numbers
and rounded to the nearest binary fraction with 53 significant bits, a tie going to the even
neighbour.
-/

namespace TaskSeries.Text

/-- A quantity `num / den`, zero or positive. -/
structure Ratio where
  num : Nat
  den : Nat
deriving DecidableEq, Repr, Hashable

namespace Ratio

/-- The quotient rounded to the nearest whole number, a tie to the even one. -/
def roundHalfEven (n d : Nat) : Nat :=
  let q := n / d
  let r := n % d
  if 2 * r < d then q
  else if d < 2 * r then q + 1
  else if q % 2 = 0 then q else q + 1

/-- The quotient rounded to the nearest whole number, a tie upwards. -/
def roundHalfUp (r : Ratio) : Nat :=
  (2 * r.num + r.den) / (2 * r.den)

/-- The greatest `k` with `2 ^ k ≤ n / d`, for positive `n` and `d`. -/
def binaryExponent (n d : Nat) : Int :=
  let k : Int := (n.log2 : Int) - (d.log2 : Int)
  if d * twoTo k.toNat ≤ n * twoTo (-k).toNat then k else k - 1

/-- The multiple of `2 ^ e` that is nearest to a quantity. -/
def nearestMultiple (e : Int) (r : Ratio) : Ratio :=
  let up := twoTo e.toNat
  let down := twoTo (-e).toNat
  ⟨roundHalfEven (r.num * down) (r.den * up) * up, down⟩

/-- The nearest binary fraction with 53 significant bits and an exponent of eleven bits. There is none
for a quantity that is too large; among the smallest quantities there are fewer significant bits. -/
def nearestDouble? (r : Ratio) : Option Ratio :=
  if r.num = 0 then some ⟨0, 1⟩
  else
    let d := nearestMultiple (max (binaryExponent r.num r.den - 52) (-1074)) r
    if 1024 ≤ binaryExponent d.num d.den then none else some d

/-- The quantity in lowest terms. -/
def reduce (r : Ratio) : Ratio :=
  let g := Nat.gcd r.num r.den
  ⟨r.num / g, r.den / g⟩

/-- The product with a whole number, rounded to a binary fraction again. -/
def scale? (factor : Nat) (r : Ratio) : Option Ratio :=
  nearestDouble? ⟨r.num * factor, r.den⟩

/-- The quantity written as decimal digits with the digits of a fraction behind them, rounded to a
binary fraction. -/
def ofDecimal? (whole fraction : Nat) (places : Nat) : Option Ratio :=
  nearestDouble? ⟨whole * tenTo places + fraction, tenTo places⟩

end Ratio

/-- Whether the number `m · 10 ^ e` is in the range of binary fractions with an exponent of eleven
bits. -/
def isHeld (m : Nat) (e : Int) : Bool :=
  let size := e + (digitsOfNat m).length
  m == 0 || size ≤ 308
    || (size == 309 && decide (m * tenTo e.toNat < (twoTo 1024 - twoTo 970) * tenTo (-e).toNat))

end TaskSeries.Text
