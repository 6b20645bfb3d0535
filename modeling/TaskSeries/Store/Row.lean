import TaskSeries.Task.Basic
import TaskSeries.Text.Ratio

/-!
Rows of the store. A row holds a task with its instants in whole milliseconds. A cell whose content
does not read as a value of its column is kept beside the task, and a row with such a cell reads as
no task.
-/

namespace TaskSeries

open TaskSeries.Calendar

/-- What a cell can hold when it is not empty. -/
inductive Content
  /-- A whole number. -/
  | number (n : Int)
  /-- A number that is not whole, in lowest terms. -/
  | fraction (negative : Bool) (magnitude : Text.Ratio)
  /-- A number that is out of range. -/
  | infinite (negative : Bool)
  | text (s : String)
deriving DecidableEq, Repr, Hashable

/-- The columns that may hold something else than a value of theirs. -/
inductive Column
  | status | tags | entry | modified | finished | due | expiry | recur | mask
deriving DecidableEq, Repr

namespace Column

/-- An update of a task leaves the column alone. -/
def isFixed : Column → Bool
  | entry | mask => true
  | _ => false

end Column

/-- An instant as it is stored: to the millisecond, rounded towards the past. -/
def Calendar.Instant.stored (i : Instant) : Instant :=
  (Instant.ofMillis? i.toMillis).getD i

/-- A task as it is stored. -/
def Task.stored (t : Task) : Task :=
  { t with
    entry := t.entry.stored
    modified := t.modified.stored
    finished := t.finished.map Instant.stored
    due := t.due.map Instant.stored
    expiry := t.expiry.map Instant.stored }

/-- A row of the store: the task as it was last written, and the cells that hold no value of their
column. -/
structure Row where
  task : Task
  stray : List (Column × Content)
deriving DecidableEq

namespace Row

/-- The id of a row. -/
def id (r : Row) : TaskId := r.task.id

/-- The cell of an instant that is out of range once it is counted in milliseconds. -/
def overflow (c : Column) (i : Option Instant) : List (Column × Content) :=
  match i with
  | none => []
  | some i =>
    match Instant.ofMillis? i.toMillis with
    | some _ => []
    | none => [(c, .number i.toMillis)]

/-- The row of a new task. -/
def ofTask (t : Task) : Row where
  task := t.stored
  stray := overflow .entry (some t.entry) ++ overflow .modified (some t.modified)
    ++ overflow .finished t.finished ++ overflow .due t.due ++ overflow .expiry t.expiry

/-- The task of a row, if every cell reads. -/
def read? (r : Row) : Option Task :=
  if r.stray.isEmpty then some r.task else none

/-- The row after its task has been updated. Its entry and its place in a series stay. -/
def update (r : Row) (t : Task) : Row :=
  let new := ofTask t
  { task := { new.task with
      entry := r.task.entry
      parent := r.task.parent
      mask := r.task.mask }
    stray := r.stray.filter (fun (c, _) => c.isFixed)
      ++ new.stray.filter (fun (c, _) => !c.isFixed) }

/-- What a cell holds instead of a value. -/
def strayIn (r : Row) (c : Column) : Option Content :=
  (r.stray.find? (·.1 == c)).map (·.2)

/-- The place that a row takes in a series: the parent, and what the cell of the mask index holds. -/
def place? (r : Row) : Option (TaskId × Content) :=
  match r.task.parent, (r.strayIn .mask).or (r.task.mask.map fun n => .number n) with
  | some parent, some mask => some (parent, mask)
  | _, _ => none

/-- The row has a period, or something in its place. -/
def hasPeriod (r : Row) : Bool :=
  r.task.recur.isSome || (r.strayIn .recur).isSome

/-- The row defines a series that goes on. -/
def isActiveParent (r : Row) : Bool :=
  r.hasPeriod && r.task.parent.isNone && r.task.status.isOpen && (r.strayIn .status).isNone

end Row

end TaskSeries
