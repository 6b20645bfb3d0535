import TaskSeries.Json.Parser
import TaskSeries.Text.Blank

/-!
What plain scalars of a configuration file stand for: the core schema of YAML 1.2, in which a whole
number may also be hexadecimal, octal or binary and digits with a zero in front are text.
-/

namespace TaskSeries.Yaml

open TaskSeries.Text

/-- The number that digits in a base stand for, at least one digit. -/
def digitsIn (base : Nat) (cs : List Char) : Option Nat :=
  if cs.isEmpty then none
  else cs.foldlM (fun n c => do
    let d ← Json.hexValue? c
    if d < base then some (base * n + d) else none) 0

/-- The magnitude of a whole number without sign. Decimal digits with a zero in front are none. -/
def magnitude : List Char → Option Nat
  | '0' :: 'x' :: rest => digitsIn 16 rest
  | '0' :: 'o' :: rest => digitsIn 8 rest
  | '0' :: 'b' :: rest => digitsIn 2 rest
  | '0' :: _ :: _ => none
  | cs => digitsIn 10 cs

/-- A whole number with an optional sign. -/
def whole : List Char → Option Int
  | '+' :: rest => (magnitude rest).map Int.ofNat
  | '-' :: rest => (magnitude rest).map fun n => -(n : Int)
  | cs => (magnitude cs).map Int.ofNat

/-- Digits with a zero in front. -/
def isPadded (cs : List Char) : Bool :=
  match cs with
  | '0' :: d :: rest => (d :: rest).all Char.isDigit
  | _ => false

/-- The exponent behind the digits of a decimal fraction, zero if nothing is there. -/
def exponent : List Char → Option Int
  | [] => some 0
  | e :: cs =>
    if e = 'e' ∨ e = 'E' then
      match cs with
      | '+' :: ds => (digitsIn 10 ds).map Int.ofNat
      | '-' :: ds => (digitsIn 10 ds).map fun n => -(n : Int)
      | ds => (digitsIn 10 ds).map Int.ofNat
    else none

/-- Whether the text is a decimal fraction, without sign, that a computer can hold. -/
def isFraction (cs : List Char) : Bool :=
  let front := cs.takeWhile Char.isDigit
  let rest := cs.dropWhile Char.isDigit
  let (back, rest) := match rest with
    | '.' :: more => (more.takeWhile Char.isDigit, more.dropWhile Char.isDigit)
    | more => ([], more)
  if (front ++ back).isEmpty then false
  else match exponent rest with
    | some e => isHeld (natOfDigits (front ++ back)) (e - back.length)
    | none => false

/-- The text behind a sign. -/
def unsigned : List Char → List Char
  | '+' :: rest => rest
  | '-' :: rest => rest
  | cs => cs

/-- The words for quantities that are no numbers; they stand for nothing. -/
def isBeyond (s : String) : Bool :=
  [".inf", ".Inf", ".INF", "+.inf", "+.Inf", "+.INF", "-.inf", "-.Inf", "-.INF",
    ".nan", ".NaN", ".NAN"].contains s

/-- The words for nothing. -/
def isNullWord (s : String) : Bool :=
  ["~", "null", "Null", "NULL"].contains s

/-- The truth value that a word stands for. -/
def boolean? (s : String) : Option Bool :=
  if ["true", "True", "TRUE"].contains s then some true
  else if ["false", "False", "FALSE"].contains s then some false
  else none

/-- The value of a whole number, if it fits into 64 bits. -/
def integer? (n : Int) : Option Json :=
  if FitsInt 64 n ∨ FitsNat 64 n then some (.int n) else none

/-- The value of a number that need not be whole. -/
def fraction? (s : String) : Option Json :=
  if isBeyond s then some .null
  else if isFraction (unsigned s.toList) then some (.real s)
  else none

/-- The value of a plain scalar. A whole number of more than 64 and at most 128 bits has none. -/
def scalar (s : String) : Option Json :=
  if s.isEmpty || isNullWord s then some .null
  else match boolean? s with
    | some b => some (.bool b)
    | none =>
      match whole s.toList with
      | some n =>
        if FitsInt 128 n ∨ FitsNat 128 n then integer? n
        else some ((fraction? s).getD (.str s))
      | none =>
        if isPadded (unsigned s.toList) then some (.str s)
        else some ((fraction? s).getD (.str s))

end TaskSeries.Yaml
