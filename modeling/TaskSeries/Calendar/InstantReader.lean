import TaskSeries.Calendar.Instant
import TaskSeries.Text.Blank
import TaskSeries.Text.Decimal
import TaskSeries.Text.Power

/-!
Reading instants. Three ways of writing are accepted: the strict internet form (RFC 3339), a relaxed
form of it for records, and short local forms that stand for UTC. In the relaxed and the short forms
a number may have fewer digits than usual and blanks in front.
-/

namespace TaskSeries.Calendar

open TaskSeries.Text

/-- The rest behind a given character. -/
def afterChar (expected : Char) : List Char → Option (List Char)
  | c :: cs => if c = expected then some cs else none
  | [] => none

/-- A number of exactly `width` digits. -/
def fixedNumber (width : Nat) (cs : List Char) : Option (Nat × List Char) :=
  let (ds, rest) := takeDigits width cs
  if ds.length = width then some (natOfDigits ds, rest) else none

/-- A number of one to `width` digits with blanks in front. -/
def looseNumber (width : Nat) (cs : List Char) : Option (Nat × List Char) :=
  let (ds, rest) := takeDigits width (skipBlanks cs)
  if ds.isEmpty then none else some (natOfDigits ds, rest)

/-- A year with blanks in front: up to four digits, or any number of them behind a sign. -/
def looseYear (cs : List Char) : Option (Int × List Char) :=
  match skipBlanks cs with
  | '-' :: cs =>
    let ds := cs.takeWhile Char.isDigit
    if ds.isEmpty then none else some (-(natOfDigits ds : Int), cs.dropWhile Char.isDigit)
  | '+' :: cs =>
    let ds := cs.takeWhile Char.isDigit
    if ds.isEmpty then none else some ((natOfDigits ds : Int), cs.dropWhile Char.isDigit)
  | cs => (looseNumber 4 cs).map fun (y, rest) => ((y : Int), rest)

/-- A fraction of a second in nanoseconds, digits beyond the ninth left out; zero without a point. -/
def fraction (cs : List Char) : Option (Nat × List Char) :=
  match cs with
  | '.' :: cs =>
    let (ds, rest) := takeDigits 9 cs
    if ds.isEmpty then none
    else some (natOfDigits ds * tenTo (9 - ds.length), rest.dropWhile Char.isDigit)
  | _ => some (0, cs)

/-- The end of a date and time: `T`, `t` or a space. -/
def afterDateMark : List Char → Option (List Char)
  | c :: cs => if c = 'T' ∨ c = 't' ∨ c = ' ' then some cs else none
  | [] => none

/-- The hours and minutes of a zone in seconds, `separator` reading what stands between them. -/
def zoneSpan (separator : List Char → Option (List Char)) (cs : List Char) :
    Option (Nat × List Char) := do
  let (hours, cs) ← fixedNumber 2 cs
  let cs ← separator cs
  let (minutes, cs) ← fixedNumber 2 cs
  if hours ≤ 23 ∧ minutes ≤ 59 then some (3600 * hours + 60 * minutes, cs) else none

/-- A zone as its seconds ahead of UTC: the letter Z, or a signed time. -/
def zone (separator : List Char → Option (List Char)) : List Char → Option (Int × List Char)
  | 'Z' :: cs => some (0, cs)
  | 'z' :: cs => some (0, cs)
  | '+' :: cs => (zoneSpan separator cs).map fun (n, rest) => ((n : Int), rest)
  | '-' :: cs => (zoneSpan separator cs).map fun (n, rest) => (-(n : Int), rest)
  | '\u2212' :: cs => (zoneSpan separator cs).map fun (n, rest) => (-(n : Int), rest)
  | _ => none

namespace Instant

/-- The instant at which clocks `offset` seconds ahead of UTC show a date and time. Second 60 is a leap
second. -/
def ofFields? (d : Date) (hour minute second nano : Nat) (offset : Int) : Option Instant := do
  if ¬ (d.Valid ∧ hour ≤ 23 ∧ minute ≤ 59 ∧ second ≤ 60) then none
  let seconds : Nat := 3600 * hour + 60 * minute + min second 59
  let shown ← of? (86400 * d.dayNumber + seconds) (if second = 60 then 1000000000 + nano else nano)
  of? (shown.second - offset) shown.nano

/-- Reads the strict form: fixed widths, a colon in the zone. -/
def ofRfc3339? (s : String) : Option Instant := do
  let (year, cs) ← fixedNumber 4 s.toList
  let cs ← afterChar '-' cs
  let (month, cs) ← fixedNumber 2 cs
  let cs ← afterChar '-' cs
  let (day, cs) ← fixedNumber 2 cs
  let cs ← afterDateMark cs
  let (hour, cs) ← fixedNumber 2 cs
  let cs ← afterChar ':' cs
  let (minute, cs) ← fixedNumber 2 cs
  let cs ← afterChar ':' cs
  let (second, cs) ← fixedNumber 2 cs
  let (nano, cs) ← fraction cs
  let (offset, cs) ← zone (afterChar ':') cs
  if cs.isEmpty then ofFields? ⟨year, month, day⟩ hour minute second nano offset else none

/-- The year, month and day of a date in the short forms, with `gap` reading what may stand before a
hyphen. -/
def takeDate (gap : List Char → List Char) (cs : List Char) : Option (Date × List Char) := do
  let (year, cs) ← looseYear cs
  let cs ← afterChar '-' (gap cs)
  let (month, cs) ← looseNumber 2 cs
  let cs ← afterChar '-' (gap cs)
  let (day, cs) ← looseNumber 2 cs
  some (⟨year, month, day⟩, cs)

/-- The zone of the relaxed form: a strict one with any colons and blanks inside, or the letters
UTC. -/
def takeRelaxedZone (cs : List Char) : Option (Int × List Char) :=
  match afterStart ['u', 't', 'c'] (lowerAscii (cs.take 3)) with
  | some _ => some (0, cs.drop 3)
  | none => zone (fun cs => some (cs.dropWhile fun c => c == ':' || isBlank c)) cs

/-- Reads the relaxed form that records use. -/
def ofRecord? (s : String) : Option Instant := do
  let (d, cs) ← takeDate skipBlanks s.toList
  let cs ← afterDateMark cs
  let (hour, cs) ← looseNumber 2 cs
  let cs ← afterChar ':' (skipBlanks cs)
  let (minute, cs) ← looseNumber 2 cs
  let cs ← afterChar ':' (skipBlanks cs)
  let (second, cs) ← looseNumber 2 cs
  let (nano, cs) ← fraction cs
  let (offset, cs) ← takeRelaxedZone (skipBlanks cs)
  if (skipBlanks cs).isEmpty then ofFields? d hour minute second nano offset else none

/-- The hour and minute of a short form. -/
def takeClock (cs : List Char) : Option (Nat × Nat × List Char) := do
  let (hour, cs) ← looseNumber 2 cs
  let cs ← afterChar ':' cs
  let (minute, cs) ← looseNumber 2 cs
  some (hour, minute, cs)

/-- Reads a date and time to the second, a `T` between them. -/
def ofDateTime? (cs : List Char) : Option Instant := do
  let (d, cs) ← takeDate id cs
  let cs ← afterChar 'T' cs
  let (hour, minute, cs) ← takeClock cs
  let cs ← afterChar ':' cs
  let (second, cs) ← looseNumber 2 cs
  if cs.isEmpty then ofFields? d hour minute second 0 0 else none

/-- Reads a date and time to the minute; `mark` reads what stands between them. -/
def ofDateMinute? (mark : List Char → Option (List Char)) (cs : List Char) : Option Instant := do
  let (d, cs) ← takeDate id cs
  let cs ← mark cs
  let (hour, minute, cs) ← takeClock cs
  if cs.isEmpty then ofFields? d hour minute 0 0 0 else none

/-- Reads a date, which stands for its midnight. -/
def ofDate? (cs : List Char) : Option Instant := do
  let (d, cs) ← takeDate id cs
  if cs.isEmpty then ofFields? d 0 0 0 0 0 else none

/-- Reads a date or a date and time in any of the forms a user may write, the strict form first. -/
def ofUser? (cs : List Char) : Option Instant :=
  ofRfc3339? (String.ofList cs)
    <|> ofDateTime? cs
    <|> ofDateMinute? (afterChar 'T') cs
    <|> ofDateMinute? (fun cs => some (skipBlanks cs)) cs
    <|> ofDate? cs

end Instant

end TaskSeries.Calendar
