/-!
Decimal digits: reading a run of digits as a number, and writing a number with as many digits as it
needs or with a least width.
-/

namespace TaskSeries.Text

/-- The digit that stands for a number below ten. -/
def digitChar (n : Nat) : Char :=
  Char.ofNat (48 + n % 10)

/-- The number that a digit stands for. -/
def digitValue (c : Char) : Nat :=
  c.toNat - 48

/-- The number that a run of decimal digits stands for. -/
def natOfDigits (cs : List Char) : Nat :=
  cs.foldl (fun n c => 10 * n + digitValue c) 0

/-- The decimal digits of a number, without leading zeros. -/
def digitsOfNat (n : Nat) : List Char :=
  if _h : n < 10 then [digitChar n] else digitsOfNat (n / 10) ++ [digitChar n]
termination_by n
decreasing_by omega

/-- A number in decimal digits. -/
def natText (n : Nat) : String :=
  String.ofList (digitsOfNat n)

/-- A whole number in decimal digits, with a sign when it is negative. -/
def intText (n : Int) : String :=
  if n < 0 then "-" ++ natText n.natAbs else natText n.natAbs

/-- A number in decimal digits, with zeros in front up to the given width. -/
def padded (width n : Nat) : String :=
  let ds := digitsOfNat n
  String.ofList (List.replicate (width - ds.length) '0' ++ ds)

/-- Reads an unsigned whole number: digits behind an optional plus sign. -/
def natOfText? (cs : List Char) : Option Nat :=
  let ds := match cs with
    | '+' :: rest => rest
    | _ => cs
  if ds.isEmpty || !ds.all Char.isDigit then none else some (natOfDigits ds)

/-- A run of digits in front, at most `limit` of them, and what follows. -/
def takeDigits : Nat → List Char → List Char × List Char
  | 0, cs => ([], cs)
  | _ + 1, [] => ([], [])
  | n + 1, c :: cs =>
    if c.isDigit then
      let (ds, rest) := takeDigits n cs
      (c :: ds, rest)
    else ([], c :: cs)

end TaskSeries.Text
