import TaskSeries.Period.Basic
import TaskSeries.Task.Basic
import TaskSeries.Text.Blank
import TaskSeries.Text.Lowercase

/-!
The order of listings: by one column in either direction, tasks without a value last, then by due date
and by place in the series.
-/

namespace TaskSeries

open TaskSeries.Calendar TaskSeries.Text

/-- A column by which a listing is ordered. -/
inductive SortField
  | due
  /-- The nominal length of the period. -/
  | recur
  | entry
  | description
deriving DecidableEq, Repr

namespace SortField

/-- The name of a column. -/
def name : SortField → String
  | due => "due"
  | recur => "recur"
  | entry => "entry"
  | description => "description"

/-- The column with a given name, in any letter case. -/
def ofText? (s : String) : Option SortField :=
  match lowercase s with
  | "due" => some due
  | "recur" | "period" => some recur
  | "entry" | "created" => some entry
  | "description" | "desc" => some description
  | _ => none

end SortField

/-- A column and a direction. -/
structure SortKey where
  field : SortField
  descending : Bool
deriving DecidableEq, Repr

namespace SortKey

/-- Ascending by due date. -/
def byDue : SortKey := ⟨.due, false⟩

/-- Reads the name of a column with a sign behind it or none; a minus sign sorts in descending
order. -/
def ofText? (s : String) : Option SortKey :=
  match (trimChars s.toList).reverse with
  | '-' :: front => (SortField.ofText? (String.ofList front.reverse)).map (⟨·, true⟩)
  | '+' :: front => (SortField.ofText? (String.ofList front.reverse)).map (⟨·, false⟩)
  | cs => (SortField.ofText? (String.ofList cs.reverse)).map (⟨·, false⟩)

end SortKey

namespace Listing

/-- Compares optional values: values in the given direction, and nothing after every value. -/
def comparePresent {α : Type} (cmp : α → α → Ordering) (descending : Bool) :
    Option α → Option α → Ordering
  | some a, some b => if descending then cmp b a else cmp a b
  | some _, none => .lt
  | none, some _ => .gt
  | none, none => .eq

/-- Compares texts by their code points. -/
def compareText (a b : String) : Ordering :=
  if a < b then .lt else if b < a then .gt else .eq

/-- Compares tasks by the column of a key. -/
def comparePrimary (key : SortKey) (a b : Task) : Ordering :=
  match key.field with
  | .due => comparePresent Instant.compare key.descending a.due b.due
  | .recur =>
    comparePresent compare key.descending (a.recur.map Period.nominalSeconds)
      (b.recur.map Period.nominalSeconds)
  | .entry => comparePresent Instant.compare key.descending (some a.entry) (some b.entry)
  | .description =>
    comparePresent compareText key.descending (some (lowercase a.description))
      (some (lowercase b.description))

/-- Compares tasks for a listing. -/
def compareTasks (key : SortKey) (a b : Task) : Ordering :=
  (comparePrimary key a b).then
    ((comparePresent Instant.compare false a.due b.due).then
      (comparePresent compare false a.mask b.mask))

/-- Tasks in the order of a key; those that the order does not tell apart stay as they were. -/
def sort (key : SortKey) (tasks : List Task) : List Task :=
  tasks.mergeSort fun a b => (compareTasks key a b).isLE

end Listing

end TaskSeries
