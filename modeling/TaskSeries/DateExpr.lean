import TaskSeries.Calendar.InstantReader
import TaskSeries.Fault
import TaskSeries.Period.Advance

/-!
Date expressions: a word or an absolute date, by itself or followed by a sign and a period that moves
it. Words are relative to the current instant, and all dates are in UTC.
-/

namespace TaskSeries

open TaskSeries.Text TaskSeries.Calendar

namespace DateExpr

/-- The days from a weekday to the next day with another name; the same name is a week ahead. -/
def daysAhead (today target : Weekday) : Nat :=
  let ahead := (7 + target.index - today.index) % 7
  if ahead = 0 then 7 else ahead

/-- Whether an expression is one of the words that stand for a day, and the midnight it stands for. -/
def wordDay? (word : String) (now : Instant) : Option (Option Instant) :=
  match word with
  | "now" => some (some now)
  | "today" | "sod" => some (Instant.midnight? now.day)
  | "tomorrow" => some (Instant.midnight? (now.day + 1))
  | "yesterday" => some (Instant.midnight? (now.day - 1))
  | _ => (Weekday.ofName? word).map fun target =>
    Instant.midnight? (now.day + daysAhead now.weekday target)

/-- The instant of an expression without an offset. -/
def resolveBase (expr : List Char) (now : Instant) : Option Instant :=
  let expr := trimChars expr
  (wordDay? (String.ofList (lowerAscii expr)) now).getD (Instant.ofUser? expr)

/-- A character that an offset may hold. -/
def isOffsetChar (c : Char) : Bool :=
  c.isAlphanum || c == '.' || c == ' '

/-- Splits an expression at its last sign into a base, whether the sign is a plus, and an offset. The
base is not empty and on one line. -/
def splitOffset (expr : List Char) : Option (List Char × Bool × List Char) :=
  match splitLast (fun c => c == '+' || c == '-') expr with
  | none => none
  | some (base, sign, offset) =>
    if base.isEmpty || base.contains '\n' || offset.isEmpty || !offset.all isOffsetChar then none
    else some (base, sign == '+', offset)

/-- Resolves an expression. The base is tried as a whole first, so that the hyphens of a date are not
taken for signs. -/
def resolveTrimmed (expr : List Char) (now : Instant) : Except Fault Instant :=
  let invalid := Fault.invalidDate (String.ofList expr)
  match resolveBase expr now with
  | some i => .ok i
  | none =>
    match splitOffset expr with
    | none => .error invalid
    | some (base, forward, offset) =>
      match resolveBase base now with
      | none => .error invalid
      | some start =>
        match Period.parse (String.ofList offset) with
        | .error cause => .error (.period cause)
        | .ok p =>
          match p.shift forward start with
          | some i => .ok i
          | none => .error invalid

/-- Resolves a date expression against the current instant. -/
def resolve (expr : String) (now : Instant) : Except Fault Instant :=
  resolveTrimmed (trimChars expr.toList) now

/-- Whether an offset goes forward, and the period it spells: a minus sign in front goes back. -/
def splitSign : List Char → Bool × List Char
  | '-' :: cs => (false, cs)
  | '+' :: cs => (true, cs)
  | cs => (true, cs)

/-- Moves an instant by an offset: a period, with a sign in front or none. -/
def moveBy (offset : String) (now : Instant) : Except Fault Instant :=
  let offset := trimChars offset.toList
  let (forward, token) := splitSign offset
  match Period.parse (String.ofList token) with
  | .error cause => .error (.period cause)
  | .ok p =>
    match p.shift forward now with
    | some i => .ok i
    | none => .error (.invalidDate (String.ofList offset))

end DateExpr

end TaskSeries
