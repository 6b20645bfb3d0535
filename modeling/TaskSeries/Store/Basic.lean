import Std.Data.HashMap
import Std.Data.HashSet
import TaskSeries.Fault
import TaskSeries.Store.Row

/-!
The store: rows in the order of their insertion. No two rows have one id or one place in a series, and
a parent is stored before its occurrences; a write that would break this is refused.
-/

namespace TaskSeries

open TaskSeries.Calendar

/-- The stored tasks. -/
structure Store where
  rows : List Row := []
  /-- How many ids have been generated for stored tasks. -/
  issued : Nat := 0
  /-- Nothing may be written. -/
  readOnly : Bool := false
deriving DecidableEq

namespace Store

/-! ## Reading -/

/-- The tasks of rows, all of which must read. -/
def readAll (rows : List Row) : Except StoreFault (List Task) :=
  match rows.mapM Row.read? with
  | some tasks => .ok tasks
  | none => .error .unreadable

/-- No mask index comes before every mask index. -/
def maskRank (t : Task) : Nat :=
  t.mask.elim 0 (· + 1)

/-- The order by entry. -/
def entryLe (a b : Task) : Bool :=
  decide (a.entry ≤ b.entry)

/-- The order by entry, then by mask index. -/
def entryMaskLe (a b : Task) : Bool :=
  decide (a.entry < b.entry) || (decide (a.entry ≤ b.entry) && decide (maskRank a ≤ maskRank b))

/-- The order by mask index. -/
def maskLe (a b : Task) : Bool :=
  decide (maskRank a ≤ maskRank b)

/-- The tasks of the rows that satisfy a condition, in an order; ties stay as they were inserted. -/
def select (s : Store) (p : Row → Bool) (le : Task → Task → Bool) :
    Except StoreFault (List Task) :=
  (readAll (s.rows.filter p)).map (·.mergeSort le)

/-- All tasks. -/
def all (s : Store) : Except StoreFault (List Task) :=
  s.select (fun _ => true) entryMaskLe

/-- The occurrences of a parent, in any status. -/
def childrenOf (s : Store) (parent : TaskId) : Except StoreFault (List Task) :=
  s.select (·.task.parent == some parent) maskLe

/-- The parents whose series go on. -/
def activeParents (s : Store) : Except StoreFault (List Task) :=
  s.select Row.isActiveParent entryLe

/-- The most characters that the ids of rows can be compared with. -/
def longestStart : Nat := 49999

/-- The tasks whose id starts with a token. A token that is too long cannot be compared with any row. -/
def withStart (s : Store) (token : String) : Except StoreFault (List Task) :=
  if !s.rows.isEmpty && TaskId.isStart token
      && longestStart < (TaskId.startChars token).length then .error .unreadable
  else s.select (·.id.hasStart token) entryLe

/-- The task with an id. -/
def get? (s : Store) (id : TaskId) : Except StoreFault (Option Task) :=
  match s.rows.find? (·.id == id) with
  | none => .ok none
  | some r =>
    match r.read? with
    | some t => .ok (some t)
    | none => .error .unreadable

/-- The number of rows. -/
def count (s : Store) : Nat := s.rows.length

/-! ## Writing -/

/-- The ids and the places that are taken. -/
structure Taken where
  ids : Std.HashSet TaskId
  places : Std.HashSet (TaskId × Content)

/-- Takes the id and the place of a row. -/
def Taken.add (taken : Taken) (r : Row) : Taken :=
  { ids := taken.ids.insert r.id
    places := match r.place? with
      | some place => taken.places.insert place
      | none => taken.places }

/-- What rows take. -/
def Taken.ofRows (rows : List Row) : Taken :=
  rows.foldl Taken.add ⟨∅, ∅⟩

/-- Takes the id and the place of a new row, unless one of them is taken or the parent is missing. A
row may be its own parent. -/
def Taken.admit (taken : Taken) (r : Row) : Except StoreFault Taken :=
  if taken.ids.contains r.id then .error .idTaken
  else if r.place?.any taken.places.contains then .error .maskTaken
  else if r.task.parent.any (fun p => !(p == r.id || taken.ids.contains p)) then .error .noParent
  else .ok (taken.add r)

/-- Fails when something is to be written to a store that cannot be changed. -/
def permit (s : Store) (tasks : List Task) : Except StoreFault Unit :=
  if s.readOnly && !tasks.isEmpty then .error .readOnly else .ok ()

/-- Inserts tasks one after another, all of them or none. -/
def insertAll (s : Store) (tasks : List Task) : Except StoreFault Store := do
  s.permit tasks
  let new := tasks.map Row.ofTask
  (new.foldlM Taken.admit (Taken.ofRows s.rows)).map fun _ => { s with rows := s.rows ++ new }

/-- Inserts a task. -/
def insert (s : Store) (t : Task) : Except StoreFault Store :=
  s.insertAll [t]

/-- The first of the tasks that is not stored. -/
def missing? (s : Store) (tasks : List Task) : Option TaskId :=
  let ids := s.rows.foldl (fun (ids : Std.HashSet TaskId) r => ids.insert r.id) ∅
  (tasks.find? fun t => !ids.contains t.id).map Task.id

/-- Updates stored tasks, all of them or none. -/
def updateAll (s : Store) (tasks : List Task) : Except StoreFault Store := do
  s.permit tasks
  match s.missing? tasks with
  | some id => .error (.notStored id)
  | none =>
    let new := tasks.foldl (fun (new : Std.HashMap TaskId Task) t => new.insert t.id t) ∅
    .ok { s with rows := s.rows.map fun r => (new.get? r.id).elim r r.update }

/-- Updates a stored task. -/
def update (s : Store) (t : Task) : Except StoreFault Store :=
  s.updateAll [t]

end Store

end TaskSeries
