import TaskSeries.Store.Row
import TaskSeries.Text.Blank

/-!
Text in columns of numbers. A text that spells a decimal number, with white space around it, becomes that
number: exactly if it is a whole number of 64 bits, and otherwise as the nearest binary fraction, of at
most some nineteen digits.
-/

namespace TaskSeries

open TaskSeries.Text

/-- A decimal number as it is spelled. -/
structure Numeral where
  negative : Bool
  /-- The digits before the point. -/
  front : List Char
  /-- The digits behind the point. -/
  back : List Char
  exponent : Int
  /-- There is neither a point nor an exponent. -/
  isWhole : Bool
deriving DecidableEq, Repr

namespace Numeral

/-- A number does not take on further digits once it has this size. -/
def enough : Nat := 1844674407370955160

/-- The number that digits continue, and the digits that are too many. -/
def takeOn : Nat → List Char → Nat × List Char
  | n, [] => (n, [])
  | n, c :: cs => if enough ≤ n then (n, c :: cs) else takeOn (10 * n + digitValue c) cs

/-- An exponent does not grow any more from here on. -/
def largestExponent : Nat := 10000

/-- The number that the digits of an exponent stand for. -/
def exponentOf (ds : List Char) : Nat :=
  ds.foldl (fun e c => if e < largestExponent then 10 * e + digitValue c else largestExponent) 0

/-- The exponent behind the digits, zero if nothing is there. -/
def exponent? : List Char → Option Int
  | [] => some 0
  | c :: cs =>
    if c = 'e' ∨ c = 'E' then
      let (negative, ds) := match cs with
        | '-' :: ds => (true, ds)
        | '+' :: ds => (false, ds)
        | ds => (false, ds)
      if ds.isEmpty || !ds.all Char.isDigit then none
      else some (if negative then -(exponentOf ds : Int) else exponentOf ds)
    else none

/-- Reads a number without sign. -/
def unsigned? (negative : Bool) (cs : List Char) : Option Numeral := do
  let front := cs.takeWhile Char.isDigit
  let rest := cs.dropWhile Char.isDigit
  let (back, tail) := match rest with
    | '.' :: more => (more.takeWhile Char.isDigit, more.dropWhile Char.isDigit)
    | more => ([], more)
  let exponent ← exponent? tail
  if (front ++ back).isEmpty then none else some ⟨negative, front, back, exponent, rest.isEmpty⟩

/-- Reads a number with white space around it. -/
def ofText? (s : String) : Option Numeral :=
  let cs := (s.toList.dropWhile isAsciiSpace).reverse.dropWhile isAsciiSpace |>.reverse
  match cs with
  | '-' :: rest => unsigned? true rest
  | '+' :: rest => unsigned? false rest
  | rest => unsigned? false rest

/-- The number with its sign. -/
def signed (x : Numeral) (n : Nat) : Int :=
  if x.negative then -(n : Int) else n

/-- The number that all digits before the point stand for. -/
def whole (x : Numeral) : Int :=
  x.signed (natOfDigits x.front)

/-- The digits that count, as a number, and the power of ten that belongs to them. -/
def scientific (x : Numeral) : Nat × Int :=
  let (n, extra) := takeOn 0 x.front
  let (m, unread) := takeOn n x.back
  (m, x.exponent + extra.length - ((x.back.length - unread.length : Nat) : Int))

/-- The content for a binary fraction; a whole one is a number. -/
def contentOf (x : Numeral) (d : Ratio) : Content :=
  if d.num % d.den = 0 then .number (x.signed (d.num / d.den))
  else .fraction x.negative d.reduce

/-- The nearest binary fraction. -/
def nearest (x : Numeral) : Content :=
  let (m, e) := x.scientific
  let size := e + (digitsOfNat m).length
  if m = 0 ∨ size < -400 then .number 0
  else if 400 < size then .infinite x.negative
  else match Ratio.nearestDouble? ⟨m * tenTo e.toNat, tenTo (-e).toNat⟩ with
    | some d => x.contentOf d
    | none => .infinite x.negative

/-- What a column of numbers keeps of the number. -/
def content (x : Numeral) : Content :=
  if x.isWhole && decide (FitsInt 64 x.whole) then .number x.whole else x.nearest

end Numeral

/-- What a column of numbers keeps of a text. -/
def Content.ofNumeric (s : String) : Content :=
  match Numeral.ofText? s with
  | some x => x.content
  | none => .text s

end TaskSeries
