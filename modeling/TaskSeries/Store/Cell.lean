import TaskSeries.Json.Parser
import TaskSeries.Store.Basic
import TaskSeries.Store.Numeral
import TaskSeries.Task.Record

/-!
Overwriting single cells of the store with anything. What reads as a value of the column becomes that
value; anything else makes the row unreadable.
-/

namespace TaskSeries

open TaskSeries.Text TaskSeries.Calendar

/-- What a cell may be overwritten with. -/
inductive Writing
  | number (n : Int)
  | text (s : String)
deriving DecidableEq, Repr

namespace Writing

/-- What a column of numbers keeps. -/
def inNumbers : Writing → Content
  | number n => .number n
  | text s => .ofNumeric s

/-- What a column of texts keeps: a number becomes its digits. -/
def inTexts : Writing → String
  | number n => intText n
  | text s => s

/-- The instant that a column of numbers keeps, if it is one. -/
def instant? (w : Writing) : Option Instant :=
  match w.inNumbers with
  | .number n => Instant.ofMillis? n
  | _ => none

/-- The mask index that a column of numbers keeps, if it is one. -/
def mask? (w : Writing) : Option Nat :=
  match w.inNumbers with
  | .number n => if FitsNat 32 n then some n.toNat else none
  | _ => none

end Writing

/-- The columns that can be overwritten. -/
inductive OpenColumn
  | tags | status | recur | due | entry | mask
deriving DecidableEq, Repr

namespace OpenColumn

/-- The column with a given name. -/
def ofName? (s : String) : Option OpenColumn :=
  match s with
  | "tags" => some tags
  | "status" => some status
  | "recur" => some recur
  | "due" => some due
  | "entry" => some entry
  | "mask_index" => some mask
  | _ => none

/-- The column among all columns. -/
def column : OpenColumn → Column
  | tags => .tags
  | status => .status
  | recur => .recur
  | due => .due
  | entry => .entry
  | mask => .mask

/-- The column may be empty. -/
def isOptional : OpenColumn → Bool
  | recur | due | mask => true
  | tags | status | entry => false

/-- What the column keeps. -/
def keep (c : OpenColumn) (w : Writing) : Content :=
  match c with
  | tags | status | recur => .text w.inTexts
  | due | entry | mask => w.inNumbers

/-- The task with the column empty. -/
def clear (c : OpenColumn) (t : Task) : Task :=
  match c with
  | recur => { t with recur := none }
  | due => { t with due := none }
  | mask => { t with mask := none }
  | tags | status | entry => t

/-- The task with the value that what is written stands for in the column, if it stands for one. -/
def assign? (c : OpenColumn) (w : Writing) (t : Task) : Option Task :=
  match c with
  | tags => ((Json.parse? w.inTexts).bind Json.strs?).map fun tags => { t with tags := tags }
  | status => (Status.ofName? w.inTexts).map fun status => { t with status := status }
  | recur =>
    ((Json.parseAll? w.inTexts).bind Period.ofJson?).map fun p => { t with recur := some p }
  | due => w.instant?.map fun i => { t with due := some i }
  | entry => w.instant?.map fun i => { t with entry := i }
  | mask => w.mask?.map fun n => { t with mask := some n }

end OpenColumn

/-- The row with a cell overwritten. -/
def Row.overwrite (r : Row) (c : OpenColumn) (w : Option Writing) : Row :=
  let others := r.stray.filter (·.1 != c.column)
  match w with
  | none => ⟨c.clear r.task, others⟩
  | some w =>
    match c.assign? w r.task with
    | some t => ⟨t, others⟩
    | none => ⟨c.clear r.task, (c.column, c.keep w) :: others⟩

/-- Overwrites a cell of the row with an id, and gives the number of rows that have it. -/
def Store.overwrite (s : Store) (id : TaskId) (c : OpenColumn) (w : Option Writing) :
    Except StoreFault (Nat × Store) :=
  match s.rows.find? (·.id == id) with
  | none => .ok (0, s)
  | some old =>
    if w.isNone && !c.isOptional then .error .emptied
    else
      let new := old.overwrite c w
      let others := s.rows.filter (·.id != id)
      if c == .mask && new.place?.any (fun place => others.any (·.place? == some place)) then
        .error .maskTaken
      else .ok (1, { s with rows := s.rows.map fun r => if r.id == id then new else r })

end TaskSeries
