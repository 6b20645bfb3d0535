import TaskSeries.Config.Basic
import TaskSeries.Listing.Sort
import TaskSeries.Series.Propagation
import TaskSeries.Tracker.Fields
import TaskSeries.Tracker.Lookup
import TaskSeries.Tracker.Trigger

/-!
The tracker and its commands. A command either succeeds with all its effects on the store, or leaves
the store as it was; a listing without matches is the one fault that keeps what the pass before it
did.
-/

namespace TaskSeries

open TaskSeries.Calendar

/-- The tracker between two commands. -/
structure Tracker where
  store : Store := {}
  config : Config := {}
  now : Instant
  respondent : Respondent
  /-- The questions that have been put, in order. -/
  asked : List String := []

/-- A command. -/
inductive Command
  | add (description : String) (fields : Fields)
  | list (sort : SortKey)
  | count
  | gc
  | modify (token : String) (fields : Fields)
  | delete (token : String)
  | done (token : String)
  | get (token : String)
  | diag
deriving DecidableEq

/-- What a command answers. -/
inductive Reply
  | task (t : Task)
  | tasks (l : List Task)
  | number (n : Nat)
  | pass (r : TriggerReport)
  | outcome (o : Outcome)
  | report (r : Integrity.Report)

namespace Tracker

/-- Applies a change of the store that succeeds as a whole or leaves the store alone. -/
def transact {α : Type} (t : Tracker) (change : Store → Except Fault (α × Store)) :
    Except Fault α × Tracker :=
  match change t.store with
  | .ok (a, s) => (.ok a, { t with store := s })
  | .error f => (.error f, t)

/-- Enters a task. A recurring one is stored as a parent without occurrences. -/
def add (draw : Nat → TaskId) (description : String) (f : Fields) (t : Tracker) :
    Except Fault Task × Tracker :=
  t.transact fun s => do
    let task ← f.newTask (draw s.issued) description t.now
    let s ← (s.insertDrawn [task]).mapError Fault.store
    .ok (task, s)

/-- Brings the store up to date. -/
def gc (draw : Nat → TaskId) (t : Tracker) : Except Fault TriggerReport × Tracker :=
  t.transact (Store.trigger draw t.config.recurrence t.now)

/-- Brings the store up to date and gives the tasks that listings show. -/
def listed (draw : Nat → TaskId) (t : Tracker) : Except Fault (List Task) × Tracker :=
  t.transact fun s => do
    let (_, s) ← s.trigger draw t.config.recurrence t.now
    let tasks ← s.all.mapError Fault.store
    .ok (tasks.filter Task.isListed, s)

/-- Lists the pending tasks in an order. -/
def list (draw : Nat → TaskId) (sort : SortKey) (t : Tracker) :
    Except Fault (List Task) × Tracker :=
  match t.listed draw with
  | (.ok [], t) => (.error .noMatch, t)
  | (.ok tasks, t) => (.ok (Listing.sort sort tasks), t)
  | (.error f, t) => (.error f, t)

/-- Counts the tasks that a listing would show. -/
def count (draw : Nat → TaskId) (t : Tracker) : Except Fault Nat × Tracker :=
  match t.listed draw with
  | (.ok tasks, t) => (.ok tasks.length, t)
  | (.error f, t) => (.error f, t)

/-- The stored tasks of the series that a task belongs to as an occurrence. -/
def siblings (s : Store) (on : Task) : Except Fault (List Task) :=
  match on.parent with
  | none => .ok []
  | some parent => (s.childrenOf parent).mapError Fault.store

/-- The store brought up to date, the task that a text addresses in it, and the tasks of its
series. -/
def address (draw : Nat → TaskId) (token : String) (t : Tracker) :
    Except Fault (Store × Task × List Task) := do
  let (_, s) ← t.store.trigger draw t.config.recurrence t.now
  let on ← s.find token
  let candidates ← siblings s on
  .ok (s, on, candidates)

/-- The store with changed tasks written back. -/
def writeBack (s : Store) (changed : List Task) : Except Fault Store := do
  let s ← (s.updateAll changed).mapError Fault.store
  s.check
  .ok s

/-- A coordinator that asks the respondent, or that takes yes for granted when the user is not to be
asked. -/
def coordinator (t : Tracker) : Coordinator :=
  Coordinator.start (if t.config.confirmation then t.respondent else .fixed true)

/-- The tracker after a coordinator has put its questions. -/
def afterQuestions (t : Tracker) (c : Coordinator) : Tracker :=
  if t.config.confirmation then
    { t with respondent := c.respondent, asked := t.asked ++ c.asked }
  else t

/-- Applies a mutation to the task that a text addresses, and offers to carry it on to the later
occurrences of its series. -/
def propagate (draw : Nat → TaskId) (token : String) (m : Mutation) (t : Tracker) :
    Except Fault Outcome × Tracker :=
  match t.address draw token with
  | .error f => (.error f, t)
  | .ok (s, on, candidates) =>
    let (result, c) := t.coordinator.propose m on candidates t.now
    let t := t.afterQuestions c
    match result with
    | .error f => (.error f, t)
    | .ok outcome =>
      match writeBack s outcome.changed with
      | .error f => (.error f, t)
      | .ok s => (.ok outcome, { t with store := s })

/-- Edits a task. -/
def modify (draw : Nat → TaskId) (token : String) (f : Fields) (t : Tracker) :
    Except Fault Outcome × Tracker :=
  match f.toEdit t.now with
  | .error f => (.error f, t)
  | .ok edit =>
    if edit.isEmpty then (.error .nothingToModify, t)
    else t.propagate draw token (.edit edit)

/-- Deletes a task; its row stays. -/
def delete (draw : Nat → TaskId) (token : String) (t : Tracker) :
    Except Fault Outcome × Tracker :=
  t.propagate draw token .delete

/-- A task as it is once it is completed. -/
def complete (now : Instant) (task : Task) : Task :=
  { task with status := .completed, finished := some now, modified := now }

/-- Completes a task, and no other one of its series. -/
def done (token : String) (t : Tracker) : Except Fault Task × Tracker :=
  t.transact fun s => do
    let task ← s.find token
    let task := complete t.now task
    let s ← (s.update task).mapError Fault.store
    .ok (task, s)

/-- The task that a text addresses. -/
def get (token : String) (t : Tracker) : Except Fault Task :=
  t.store.find token

/-- The report over all stored tasks. -/
def diag (t : Tracker) : Except Fault Integrity.Report := do
  let tasks ← t.store.all.mapError Fault.store
  match Integrity.diagnose? tasks with
  | some report => .ok report
  | none => .error .overflow

/-- Executes a command. `draw` gives the generated ids in order. -/
def run (draw : Nat → TaskId) (command : Command) (t : Tracker) : Except Fault Reply × Tracker :=
  match command with
  | .add description f => (t.add draw description f).map (Except.map .task) id
  | .list sort => (t.list draw sort).map (Except.map .tasks) id
  | .count => (t.count draw).map (Except.map .number) id
  | .gc => (t.gc draw).map (Except.map .pass) id
  | .modify token f => (t.modify draw token f).map (Except.map .outcome) id
  | .delete token => (t.delete draw token).map (Except.map .outcome) id
  | .done token => (t.done token).map (Except.map .task) id
  | .get token => ((t.get token).map .task, t)
  | .diag => (t.diag.map .report, t)

end Tracker

end TaskSeries
