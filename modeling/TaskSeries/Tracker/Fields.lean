import TaskSeries.DateExpr
import TaskSeries.Task.Basic

/-!
The fields of a task as texts, and what they mean for a new task and for an edit.
-/

namespace TaskSeries

open TaskSeries.Text TaskSeries.Calendar

/-- Texts for the fields of a task; fields that are not given are `none`. -/
structure Fields where
  description : Option String := none
  due : Option String := none
  recur : Option String := none
  expiry : Option String := none
  project : Option String := none
  priority : Option String := none
  tags : Option (List String) := none
deriving DecidableEq, Repr

namespace Fields

/-- A text without surrounding blanks, unless nothing is left. -/
def filled? (s : String) : Option String :=
  let s := trim s
  if s.isEmpty then none else some s

/-- The period that a text spells. -/
def period (s : String) : Except Fault Period :=
  (Period.parse s).mapError Fault.period

/-- An optional value that is read when it is given. -/
def optional {α : Type} (read : String → Except Fault α) : Option String → Except Fault (Option α)
  | none => .ok none
  | some s => (read s).map some

/-- A date to be set, which an empty text clears. -/
def dateEdit (now : Instant) (s : String) : Except Fault (Option Instant) :=
  if (trim s).isEmpty then .ok none else (DateExpr.resolve (trim s) now).map some

/-- The new task that a description and further fields describe. The period is read before the dates,
and a period takes a due date. -/
def newTask (id : TaskId) (description : String) (f : Fields) (now : Instant) :
    Except Fault Task := do
  let some description := filled? description | .error .noDescription
  let recur ← optional period f.recur
  let due ← optional (DateExpr.resolve · now) f.due
  let expiry ← optional (DateExpr.resolve · now) f.expiry
  if recur.isSome && due.isNone then .error .missingDue
  else .ok { Task.fresh id description now with
    project := f.project.bind filled?
    priority := f.priority.bind filled?
    tags := f.tags.getD []
    due := due
    expiry := expiry
    recur := recur }

/-- The edit that fields describe. An empty text clears an optional field and leaves the description
alone. -/
def toEdit (f : Fields) (now : Instant) : Except Fault Edit := do
  let recur ← optional period f.recur
  let due ← optional (dateEdit now) f.due
  let expiry ← optional (dateEdit now) f.expiry
  .ok {
    description := f.description.bind filled?
    project := f.project.map filled?
    priority := f.priority.map filled?
    tags := f.tags
    due := due
    expiry := expiry
    recur := recur }

end Fields

end TaskSeries
