import TaskSeries.Json.Basic
import TaskSeries.Text.Decimal
import TaskSeries.Text.Ratio

/-!
Reading JSON text. A text is one value with white space around it; values nest at most 127 deep.
-/

namespace TaskSeries.Json

open TaskSeries.Text

/-- The white space of JSON. -/
def isSpace (c : Char) : Bool :=
  c == ' ' || c == '\n' || c == '\r' || c == '\t'

/-- The value of a hexadecimal digit. -/
def hexValue? (c : Char) : Option Nat :=
  if c.isDigit then some (c.toNat - 48)
  else if 'a' ≤ c ∧ c ≤ 'f' then some (c.toNat - 87)
  else if 'A' ≤ c ∧ c ≤ 'F' then some (c.toNat - 55)
  else none

/-- A number of four hexadecimal digits. -/
def hexUnit : List Char → Option (Nat × List Char)
  | a :: b :: c :: d :: rest => do
    let a ← hexValue? a
    let b ← hexValue? b
    let c ← hexValue? c
    let d ← hexValue? d
    some (4096 * a + 256 * b + 16 * c + d, rest)
  | _ => none

/-- The character of a code unit, or of a pair of surrogates with the second one behind it. -/
def escapedUnit (cs : List Char) : Option (Char × List Char) := do
  let (high, rest) ← hexUnit cs
  if high < 0xD800 ∨ 0xDFFF < high then some (Char.ofNat high, rest)
  else if 0xDC00 ≤ high then none
  else match rest with
    | '\\' :: 'u' :: rest =>
      let (low, rest) ← hexUnit rest
      if 0xDC00 ≤ low ∧ low ≤ 0xDFFF then
        some (Char.ofNat (0x10000 + 1024 * (high - 0xD800) + (low - 0xDC00)), rest)
      else none
    | _ => none

/-- The character of an escape, behind its backslash. -/
def escaped : List Char → Option (Char × List Char)
  | '"' :: rest => some ('"', rest)
  | '\\' :: rest => some ('\\', rest)
  | '/' :: rest => some ('/', rest)
  | 'b' :: rest => some ('\x08', rest)
  | 'f' :: rest => some ('\x0c', rest)
  | 'n' :: rest => some ('\n', rest)
  | 'r' :: rest => some ('\r', rest)
  | 't' :: rest => some ('\t', rest)
  | 'u' :: rest => escapedUnit rest
  | _ => none

/-- The characters of a string up to its closing quote. The first argument bounds their number. -/
def stringBody : Nat → List Char → Option (List Char × List Char)
  | 0, _ => none
  | _ + 1, [] => none
  | _ + 1, '"' :: rest => some ([], rest)
  | n + 1, '\\' :: rest => do
    let (c, rest) ← escaped rest
    let (cs, rest) ← stringBody n rest
    some (c :: cs, rest)
  | n + 1, c :: rest =>
    if c.toNat < 0x20 then none
    else do
      let (cs, rest) ← stringBody n rest
      some (c :: cs, rest)

/-- Digits in front, at least one. -/
def someDigits (cs : List Char) : Option (List Char × List Char) :=
  let ds := cs.takeWhile Char.isDigit
  if ds.isEmpty then none else some (ds, cs.dropWhile Char.isDigit)

/-- The digits before the point: a zero alone, or digits that start with another. -/
def wholeDigits : List Char → Option (List Char × List Char)
  | '0' :: rest => some (['0'], rest)
  | cs => someDigits cs

/-- The fraction of a number as it is written, or nothing. -/
def fractionPart : List Char → Option (List Char × List Char)
  | '.' :: rest => (someDigits rest).map fun (ds, rest) => ('.' :: ds, rest)
  | cs => some ([], cs)

/-- The exponent of a number as it is written, or nothing. -/
def exponentPart : List Char → Option (List Char × List Char)
  | c :: rest =>
    if c = 'e' ∨ c = 'E' then
      match rest with
      | '+' :: rest => (someDigits rest).map fun (ds, rest) => (c :: '+' :: ds, rest)
      | '-' :: rest => (someDigits rest).map fun (ds, rest) => (c :: '-' :: ds, rest)
      | rest => (someDigits rest).map fun (ds, rest) => (c :: ds, rest)
    else some ([], c :: rest)
  | [] => some ([], [])

/-- The value of a number without fraction and exponent: a whole number if it fits into 64 bits. Minus
zero is not a whole number. -/
def wholeNumber (negative : Bool) (digits : List Char) : Json :=
  let n := natOfDigits digits
  let signed : Int := if negative then -(n : Int) else n
  if !(negative && n == 0) && (FitsInt 64 signed ∨ FitsNat 64 signed) then int signed
  else real (String.ofList (if negative then '-' :: digits else digits))

/-- The power of ten that an exponent stands for. -/
def exponentValue (written : List Char) : Int :=
  match written.drop 1 with
  | '-' :: ds => -(natOfDigits ds : Int)
  | '+' :: ds => natOfDigits ds
  | ds => natOfDigits ds

/-- A number. One that a computer cannot hold is an error. -/
def number (cs : List Char) : Option (Json × List Char) := do
  let (negative, cs) := match cs with
    | '-' :: rest => (true, rest)
    | cs => (false, cs)
  let (whole, cs) ← wholeDigits cs
  let (fraction, cs) ← fractionPart cs
  let (exponent, cs) ← exponentPart cs
  let places := fraction.drop 1
  if !isHeld (natOfDigits (whole ++ places)) (exponentValue exponent - places.length) then none
  else if fraction.isEmpty && exponent.isEmpty then some (wholeNumber negative whole, cs)
  else
    let sign := if negative then ['-'] else []
    some (real (String.ofList (sign ++ whole ++ fraction ++ exponent)), cs)

/-- The items of an array up to its closing bracket, each read by `value`. The first argument bounds
their number. -/
def itemsWith (value : List Char → Option (Json × List Char)) :
    Nat → List Char → Option (List Json × List Char)
  | 0, _ => none
  | n + 1, cs => do
    let (v, rest) ← value cs
    match rest.dropWhile isSpace with
    | ',' :: rest =>
      let (vs, rest) ← itemsWith value n rest
      some (v :: vs, rest)
    | ']' :: rest => some ([v], rest)
    | _ => none

/-- The members of an object up to its closing brace, each value read by `value`. The first argument
bounds their number and the lengths of their names. -/
def membersWith (value : List Char → Option (Json × List Char)) (longest : Nat) :
    Nat → List Char → Option (List (String × Json) × List Char)
  | 0, _ => none
  | n + 1, cs =>
    match cs.dropWhile isSpace with
    | '"' :: rest => do
      let (key, rest) ← stringBody longest rest
      match rest.dropWhile isSpace with
      | ':' :: rest =>
        let (v, rest) ← value rest
        match rest.dropWhile isSpace with
        | ',' :: rest =>
          let (ms, rest) ← membersWith value longest n rest
          some ((String.ofList key, v) :: ms, rest)
        | '\x7d' :: rest => some ([(String.ofList key, v)], rest)
        | _ => none
      | _ => none
    | _ => none

/-- A value with white space in front. `longest` bounds the parts of every container and string,
`depth` the nesting. -/
def valueWith (longest : Nat) (depth : Nat) (cs : List Char) : Option (Json × List Char) :=
  match cs.dropWhile isSpace with
  | '"' :: rest => (stringBody longest rest).map fun (s, rest) => (str (String.ofList s), rest)
  | '[' :: rest =>
    match depth with
    | 0 => none
    | depth + 1 =>
      match rest.dropWhile isSpace with
      | ']' :: rest => some (arr [], rest)
      | rest => (itemsWith (valueWith longest depth) longest rest).map
          fun (vs, rest) => (arr vs, rest)
  | '\x7b' :: rest =>
    match depth with
    | 0 => none
    | depth + 1 =>
      match rest.dropWhile isSpace with
      | '\x7d' :: rest => some (obj [], rest)
      | rest => (membersWith (valueWith longest depth) longest longest rest).map
          fun (ms, rest) => (obj ms, rest)
  | 't' :: 'r' :: 'u' :: 'e' :: rest => some (bool true, rest)
  | 'f' :: 'a' :: 'l' :: 's' :: 'e' :: rest => some (bool false, rest)
  | 'n' :: 'u' :: 'l' :: 'l' :: rest => some (null, rest)
  | cs => number cs

/-- Reads a JSON text. Objects have all members that are written, also several with one name. -/
def parseAll? (s : String) : Option Json := do
  let cs := s.toList
  let (v, rest) ← valueWith (cs.length + 1) 127 cs
  if (rest.dropWhile isSpace).isEmpty then some v else none

mutual

/-- A value in whose objects the last of several members with one name counts. -/
def distinct : Json → Json
  | arr items => arr (distinctItems items)
  | obj members => ofMembers (distinctMembers members)
  | v => v

/-- The items of an array, each with distinct names. -/
def distinctItems : List Json → List Json
  | [] => []
  | v :: rest => distinct v :: distinctItems rest

/-- The members of an object, each value with distinct names. -/
def distinctMembers : List (String × Json) → List (String × Json)
  | [] => []
  | (name, v) :: rest => (name, distinct v) :: distinctMembers rest

end

/-- Reads a JSON text. The last of several members with one name counts. -/
def parse? (s : String) : Option Json :=
  (parseAll? s).map distinct

end TaskSeries.Json
