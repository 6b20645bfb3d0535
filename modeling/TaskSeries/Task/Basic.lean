import TaskSeries.Calendar.Instant
import TaskSeries.Period.Basic
import TaskSeries.Task.Id

/-!
Tasks. A recurring task is kept as a parent that carries a period; its occurrences are tasks of their
own that name the parent and hold a mask index, their place in the series.
-/

namespace TaskSeries

open TaskSeries.Calendar

/-- Where a task is in its life. -/
inductive Status
  | pending | completed | deleted | waiting
deriving DecidableEq, Repr

namespace Status

/-- The name of a status. -/
def name : Status → String
  | pending => "pending"
  | completed => "completed"
  | deleted => "deleted"
  | waiting => "waiting"

/-- The status with a given name. -/
def ofName? (s : String) : Option Status :=
  match s with
  | "pending" => some pending
  | "completed" => some completed
  | "deleted" => some deleted
  | "waiting" => some waiting
  | _ => none

/-- Pending and waiting tasks are still to be done. -/
def isOpen : Status → Bool
  | pending | waiting => true
  | completed | deleted => false

/-- The mark of a status in the mask of a series. -/
def mark : Status → Char
  | pending => '-'
  | completed => '+'
  | deleted => 'X'
  | waiting => 'W'

end Status

/-- A task. -/
structure Task where
  id : TaskId
  description : String
  status : Status
  project : Option String
  priority : Option String
  tags : List String
  /-- When the task was entered. -/
  entry : Instant
  modified : Instant
  /-- When the task was completed or deleted. -/
  finished : Option Instant
  due : Option Instant
  /-- The last instant at which an occurrence may be due. -/
  expiry : Option Instant
  recur : Option Period
  parent : Option TaskId
  /-- The place in the parent's series, counted from zero. -/
  mask : Option Nat
deriving DecidableEq

namespace Task

/-- A pending task with nothing but a description, entered now. -/
def fresh (id : TaskId) (description : String) (now : Instant) : Task where
  id := id
  description := description
  status := .pending
  project := none
  priority := none
  tags := []
  entry := now
  modified := now
  finished := none
  due := none
  expiry := none
  recur := none
  parent := none
  mask := none

/-- A task that defines a series: it has a period and is no occurrence itself. -/
def isRecurringParent (t : Task) : Bool :=
  t.recur.isSome && t.parent.isNone

/-- A parent whose series goes on. -/
def isActiveParent (t : Task) : Bool :=
  t.isRecurringParent && t.status.isOpen

/-- A task that listings show: pending, and not the definition of a series. -/
def isListed (t : Task) : Bool :=
  t.status == .pending && !t.isRecurringParent

end Task

/-- Changes to the fields of a task. A field that is `none` stays; an optional field is set to what is
inside. -/
structure Edit where
  description : Option String := none
  project : Option (Option String) := none
  priority : Option (Option String) := none
  tags : Option (List String) := none
  due : Option (Option Instant) := none
  expiry : Option (Option Instant) := none
  recur : Option Period := none
deriving DecidableEq

namespace Edit

/-- The edit leaves every field alone. -/
def isEmpty (e : Edit) : Bool :=
  e == {}

/-- The task with the edit's fields. -/
def apply (e : Edit) (t : Task) : Task :=
  { t with
    description := e.description.getD t.description
    project := e.project.getD t.project
    priority := e.priority.getD t.priority
    tags := e.tags.getD t.tags
    due := e.due.getD t.due
    expiry := e.expiry.getD t.expiry
    recur := e.recur <|> t.recur }

end Edit

/-- What a command does to a task. -/
inductive Mutation
  | edit (fields : Edit)
  | delete
deriving DecidableEq

namespace Mutation

/-- The task after the mutation, stamped as modified now. A deleted task is finished now. -/
def apply (m : Mutation) (now : Instant) (t : Task) : Task :=
  match m with
  | edit e => { e.apply t with modified := now }
  | delete => { t with status := .deleted, finished := some now, modified := now }

/-- The verb that names the mutation. -/
def verb : Mutation → String
  | edit _ => "modify"
  | delete => "delete"

end Mutation

end TaskSeries
