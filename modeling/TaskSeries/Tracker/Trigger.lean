import TaskSeries.Series.Integrity
import TaskSeries.Series.Occurrences
import TaskSeries.Series.Settings
import TaskSeries.Store.Basic

/-!
The pass that brings the store up to date with an instant: missing occurrences of every series that
goes on are generated, and under the policy of expiring, pending tasks whose expiry has passed are
deleted.
-/

namespace TaskSeries

open TaskSeries.Calendar

/-- What a pass did. -/
structure TriggerReport where
  generated : Nat
  expired : Nat
deriving DecidableEq, Repr

namespace Store

/-- Inserts tasks whose ids were generated. -/
def insertDrawn (s : Store) (tasks : List Task) : Except StoreFault Store :=
  (s.insertAll tasks).map fun next => { next with issued := s.issued + tasks.length }

/-- Generates the occurrences that a parent is missing, and gives their number. `draw` gives the
generated ids in order. -/
def generateFor (draw : Nat → TaskId) (now : Instant) (horizon : Nat) (s : Store) (parent : Task) :
    Except Fault (Nat × Store) := do
  let children ← (s.childrenOf parent.id).mapError Fault.store
  match Series.materialize? parent children now horizon fun i => draw (s.issued + i) with
  | none => .error .overflow
  | some made =>
    let next ← (s.insertDrawn made).mapError Fault.store
    .ok (made.length, next)

/-- Generates the missing occurrences of every series that goes on, and gives their number. -/
def generate (draw : Nat → TaskId) (settings : RecurrenceSettings) (now : Instant) (s : Store) :
    Except Fault (Nat × Store) :=
  if settings.enabled then do
    let parents ← s.activeParents.mapError Fault.store
    parents.foldlM (fun (n, s) parent => do
      let (made, s) ← s.generateFor draw now settings.horizon parent
      .ok (n + made, s)) (0, s)
  else .ok (0, s)

/-- A pending task whose expiry has passed. -/
def isPast (now : Instant) (t : Task) : Bool :=
  t.status == .pending && t.expiry.any (· < now)

/-- Deletes the pending tasks whose expiry has passed, and gives their number. -/
def expire (now : Instant) (s : Store) : Except StoreFault (Nat × Store) := do
  let tasks ← s.all
  let past := tasks.filter (isPast now)
  let next ← s.updateAll (past.map (Mutation.delete.apply now))
  .ok (past.length, next)

/-- Fails when the stored tasks break the structure of a series, or do not read. -/
def check (s : Store) : Except Fault Unit := do
  let tasks ← s.all.mapError Fault.store
  Integrity.check tasks

/-- Brings the store up to date. -/
def trigger (draw : Nat → TaskId) (settings : RecurrenceSettings) (now : Instant) (s : Store) :
    Except Fault (TriggerReport × Store) := do
  let (generated, s) ← s.generate draw settings now
  let (expired, s) ←
    if settings.policy = .expire then (s.expire now).mapError Fault.store else .ok (0, s)
  if generated + expired = 0 then .ok (⟨generated, expired⟩, s)
  else do
    s.check
    .ok (⟨generated, expired⟩, s)

end Store

end TaskSeries
