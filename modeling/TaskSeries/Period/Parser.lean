import TaskSeries.Period.Basic
import TaskSeries.Text.Blank
import TaskSeries.Text.Decimal
import TaskSeries.Text.Power
import TaskSeries.Text.Ratio

/-!
Reading a recurrence period. A token is one of the names of calendar periods, a magnitude with a unit
word, or an ISO 8601 duration; a number alone is refused because its unit would be a guess.
-/

namespace TaskSeries

open TaskSeries.Text

/-- Why a token is no recurrence period. Each cause carries the token without the blanks around it. -/
inductive PeriodError
  /-- The token is a number without a unit. -/
  | unsupported (token : String)
  /-- The token spells a duration of no length. -/
  | zeroDuration (token : String)
  /-- The token has none of the known forms, or is too long a duration. -/
  | unrecognized (token : String)
deriving DecidableEq, Repr

/-- The message for a token that is no period. -/
def PeriodError.message : PeriodError → String
  | unsupported token => "the duration value '" ++ token ++ "' is not supported"
  | zeroDuration token =>
    "the duration value '" ++ token ++ "' is zero; a recurrence must move forward"
  | unrecognized token => "'" ++ token ++ "' is not a valid recurrence period"

namespace Period

/-- The longest exact period that is accepted: a thousand years of 365 days. -/
def longest : Nat := 1000 * 365 * 86400

/-- The periods that have a name. -/
def ofName? (name : String) : Option Period :=
  match name with
  | "daily" | "day" => some (calendar .day 1 false)
  | "weekdays" => some weekdays
  | "weekly" | "week" => some (calendar .week 1 false)
  | "biweekly" | "fortnight" => some (calendar .week 2 false)
  | "monthly" | "month" => some (calendar .month 1 false)
  | "bimonthly" => some (calendar .month 2 false)
  | "quarterly" => some (calendar .month 3 false)
  | "semiannual" => some (calendar .month 6 false)
  | "yearly" | "year" | "annual" => some (calendar .year 1 false)
  | "biyearly" | "biannual" => some (calendar .year 2 false)
  | "hourly" => some (exact 3600)
  | _ => none

/-- The seconds that a unit word stands for. -/
def unitSeconds? (word : String) : Option Nat :=
  match word with
  | "s" | "sec" | "secs" | "second" | "seconds" => some 1
  | "min" | "mins" | "minute" | "minutes" => some 60
  | "h" | "hr" | "hrs" | "hour" | "hours" => some 3600
  | "d" | "day" | "days" => some 86400
  | "w" | "wk" | "wks" | "week" | "weeks" => some (7 * 86400)
  | "mo" | "mth" | "mths" | "month" | "months" => some (30 * 86400)
  | "q" | "qtr" | "qtrs" | "quarter" | "quarters" => some (91 * 86400)
  | "y" | "yr" | "yrs" | "year" | "years" => some (365 * 86400)
  | _ => none

/-- A number in front: its digits, the digits of its fraction if it has a point with digits behind it,
and what follows. -/
def takeNumber (cs : List Char) : List Char × List Char × List Char :=
  let whole := cs.takeWhile Char.isDigit
  match cs.dropWhile Char.isDigit with
  | '.' :: rest =>
    let fraction := rest.takeWhile Char.isDigit
    if fraction.isEmpty then (whole, [], '.' :: rest)
    else (whole, fraction, rest.dropWhile Char.isDigit)
  | rest => (whole, [], rest)

/-- A number and nothing else. -/
def isBareNumber (cs : List Char) : Bool :=
  let (whole, _, rest) := takeNumber cs
  !whole.isEmpty && rest.isEmpty

/-- The seconds of a magnitude with a unit word, white space between them allowed. The magnitude is
held as a binary fraction; the product is one too and is rounded to whole seconds at last, a half
going up. There are none when either is too large to be held, or when they are too many. -/
def magnitudeSeconds? (cs : List Char) : Option Nat :=
  let (whole, fraction, rest) := takeNumber cs
  if whole.isEmpty then none
  else do
    let factor ← unitSeconds? (String.ofList (rest.dropWhile isAsciiSpace))
    let magnitude ← Ratio.ofDecimal? (natOfDigits whole) (natOfDigits fraction) fraction.length
    let product ← magnitude.scale? factor
    let seconds := product.roundHalfUp
    if seconds ≤ longest then some seconds else none

/-- The components of a duration in a fixed order, each a run of digits with its designator and each
optional. Gives the digits of those that are there with the seconds of their units, and what
follows. -/
def takeComponents : List (Char × Nat) → List Char → List (List Char × Nat) × List Char
  | [], cs => ([], cs)
  | (designator, seconds) :: units, cs =>
    let digits := cs.takeWhile Char.isDigit
    match cs.dropWhile Char.isDigit with
    | c :: rest =>
      if !digits.isEmpty && c == designator then
        let (counts, rest) := takeComponents units rest
        ((digits, seconds) :: counts, rest)
      else takeComponents units cs
    | [] => takeComponents units cs

/-- The designators of the date part of a duration, with the seconds of their units. -/
def dateComponents : List (Char × Nat) :=
  [('y', 365 * 86400), ('m', 30 * 86400), ('w', 7 * 86400), ('d', 86400)]

/-- The designators of the time part of a duration, with the seconds of their units. -/
def timeComponents : List (Char × Nat) :=
  [('h', 3600), ('m', 60), ('s', 1)]

/-- The components of an ISO 8601 duration in lower case, behind its leading `p`: those of the date,
and behind a `t` those of the time. -/
def isoComponents? (cs : List Char) : Option (List (List Char × Nat)) :=
  match takeComponents dateComponents cs with
  | (date, []) => some date
  | (date, 't' :: rest) =>
    match takeComponents timeComponents rest with
    | (time, []) => some (date ++ time)
    | _ => none
  | _ => none

/-- The number itself, when it fits into 64 bits with a sign. -/
def held? (n : Nat) : Option Nat :=
  if FitsInt 64 n then some n else none

/-- One component more in a sum of seconds. The count, its product with the unit and the new sum all
have to fit into 64 bits. -/
def addComponent? (total : Nat) (component : List Char × Nat) : Option Nat := do
  let count ← held? (natOfDigits component.1)
  let product ← held? (count * component.2)
  held? (total + product)

/-- The seconds of an ISO 8601 duration in lower case, behind its leading `p`. At least one component is
needed, and one of the time behind a `t`. -/
def isoSeconds? (cs : List Char) : Option Nat :=
  if cs.isEmpty || cs.getLast? == some 't' then none
  else do
    let total ← (← isoComponents? cs).foldlM addComponent? 0
    if total ≤ longest then some total else none

/-- The seconds of a token in lower case that is no name and no bare number. -/
def exactSeconds? : List Char → Option Nat
  | 'p' :: cs => isoSeconds? cs
  | cs => magnitudeSeconds? cs

/-- Reads a token whose blanks are trimmed already. -/
def parseTrimmed (token : List Char) : Except PeriodError Period :=
  let raw := String.ofList token
  let lower := lowerAscii token
  match ofName? (String.ofList lower) with
  | some p => .ok p
  | none =>
    if isBareNumber lower then .error (.unsupported raw)
    else match exactSeconds? lower with
      | none => .error (.unrecognized raw)
      | some 0 => .error (.zeroDuration raw)
      | some seconds => .ok (exact seconds)

/-- Reads a recurrence period. -/
def parse (token : String) : Except PeriodError Period :=
  parseTrimmed (trimChars token.toList)

end Period

end TaskSeries
