import TaskSeries.Period.Advance
import TaskSeries.Task.Basic

/-!
The occurrences of a series. A parent's occurrences are not made when it is entered: each pass walks
the series on from its latest occurrence until enough of them are pending ahead of the current
instant, or the series ends.
-/

namespace TaskSeries

open TaskSeries.Calendar

/-- The most occurrences that one pass makes for one parent. The next pass goes on where it stopped. -/
def mostPerPass : Nat := 10000

namespace Series

/-- An occurrence that is pending and due later than now. -/
def isAhead (now : Instant) (t : Task) : Bool :=
  t.status == .pending && t.due.any (now < ·)

/-- How many occurrences are pending ahead of now. -/
def pendingAhead (children : List Task) (now : Instant) : Nat :=
  children.countP (isAhead now)

/-- The greatest place. Mask indices are numbers of 32 bits. -/
def lastPlace : Nat := 4294967295

/-- The place behind another one. Counting on from the greatest one overflows. -/
def placeBehind? (place : Nat) : Option Nat :=
  if place < lastPlace then some (place + 1) else none

/-- The place behind the last one that is taken, however great. -/
def nextMask (children : List Task) : Nat :=
  match (children.filterMap Task.mask).max? with
  | some last => last + 1
  | none => 0

/-- The place behind the last one that is taken, counted in 32 bits. -/
def nextMask? (children : List Task) : Option Nat :=
  match (children.filterMap Task.mask).max? with
  | some last => placeBehind? last
  | none => some 0

/-- The occurrence with the greatest mask index, the last one of several. -/
def latest (children : List Task) : Option Task :=
  children.foldl (fun best t =>
    match t.mask, best.bind Task.mask with
    | none, _ => best
    | some _, none => some t
    | some m, some b => if b ≤ m then some t else best) none

/-- The instant after a number of periods. -/
def advanceTimes (p : Period) : Nat → Instant → Option Instant
  | 0, r => some r
  | n + 1, r => (p.advance r).bind (advanceTimes p n)

/-- Periods are added at once or in two parts. -/
theorem advanceTimes_add (p : Period) (m n : Nat) (r : Instant) :
    advanceTimes p (m + n) r = (advanceTimes p m r).bind (advanceTimes p n) := by
  induction m generalizing r with
  | zero => rw [Nat.zero_add, advanceTimes, Option.bind_some]
  | succ m ih =>
    rw [Nat.add_right_comm, advanceTimes, advanceTimes, Option.bind_assoc]
    exact congrArg (p.advance r).bind (funext ih)

/-- The last of a number of periods is added to the instant after the others. -/
theorem advanceTimes_succ (p : Period) (n : Nat) (r : Instant) :
    advanceTimes p (n + 1) r = (advanceTimes p n r).bind p.advance := by
  have hone : advanceTimes p 1 = p.advance := funext fun r => Option.bind_fun_some (p.advance r)
  rw [advanceTimes_add, hone]

/-- The instant from which a series goes on: the due date of its latest occurrence, or that date
computed anew from the first one when the occurrence has lost it. Nothing for a series without
occurrences, or whose date cannot be computed. -/
def anchor (p : Period) (first : Instant) (children : List Task) : Option Instant :=
  match latest children with
  | none => none
  | some t => t.due <|> advanceTimes p (nextMask children - 1) first

/-- The due date that follows `last`, which is the first one when there is no last. The series ends
where the date is out of range or does not move on. -/
def nextDue (p : Period) (first : Instant) : Option Instant → Option Instant
  | none => some first
  | some last => (p.advance last).filter (last < ·)

/-- A due date that the expiry allows; the expiry itself is allowed. -/
def withinExpiry (expiry : Option Instant) (due : Instant) : Bool :=
  expiry.all (due ≤ ·)

/-- The due dates of the occurrences that are missing behind `last`, when `ahead` of them are pending
ahead of now already. The first argument bounds their number. -/
def missingDues (p : Period) (first : Instant) (expiry : Option Instant) (now : Instant)
    (horizon : Nat) : Nat → Option Instant → Nat → List Instant
  | 0, _, _ => []
  | n + 1, last, ahead =>
    if ahead < horizon then
      match nextDue p first last with
      | none => []
      | some due =>
        if withinExpiry expiry due then
          due :: missingDues p first expiry now horizon n (some due)
            (if now < due then ahead + 1 else ahead)
        else []
    else []

/-- The occurrence of a parent at a place of its series. -/
def occurrence (parent : Task) (id : TaskId) (due : Instant) (mask : Nat) (now : Instant) : Task :=
  { parent with
    id := id
    status := .pending
    entry := now
    modified := now
    finished := none
    due := some due
    parent := some parent.id
    mask := some mask }

/-- The occurrences with the given due dates, at consecutive places and with ids drawn in order. -/
def occurrences (parent : Task) (now : Instant) (draw : Nat → TaskId) (start : Nat)
    (dues : List Instant) : List Task :=
  dues.zipIdx.map fun (due, i) => occurrence parent (draw i) due (start + i) now

/-- The occurrences that a parent is missing, given all it has in any status, at places however great. -/
def materialize (parent : Task) (children : List Task) (now : Instant) (horizon : Nat)
    (draw : Nat → TaskId) : List Task :=
  match parent.recur, parent.due with
  | some p, some first =>
    occurrences parent now draw (nextMask children)
      (missingDues p first parent.expiry now horizon mostPerPass (anchor p first children)
        (pendingAhead children now))
  | _, _ => []

/-- What a pass makes for a parent, with the places counted in 32 bits. They are counted on behind every
occurrence, the last one included; a pass that overflows makes nothing. -/
def materialize? (parent : Task) (children : List Task) (now : Instant) (horizon : Nat)
    (draw : Nat → TaskId) : Option (List Task) :=
  match parent.recur, parent.due with
  | some _, some _ => do
    let start ← nextMask? children
    let made := materialize parent children now horizon draw
    let _ ← made.foldlM (fun place _ => placeBehind? place) start
    some made
  | _, _ => some []

end Series

end TaskSeries
