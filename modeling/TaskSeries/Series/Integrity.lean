import Std.Data.HashSet
import TaskSeries.Fault
import TaskSeries.Json.Basic
import TaskSeries.Series.Occurrences

/-!
The structure that stored tasks must have: no id twice, and no place of a series taken twice. The
checks stop at the first violation; the report lists all of them and shows every series as a row of
marks.
-/

namespace TaskSeries

namespace Integrity

/-- The items that have occurred before in the list, each time they do, in order. -/
def repeatsFrom {α : Type} [BEq α] [Hashable α] (seen : Std.HashSet α) : List α → List α
  | [] => []
  | a :: rest =>
    if seen.contains a then a :: repeatsFrom seen rest else repeatsFrom (seen.insert a) rest

/-- The items that have occurred before in the list. -/
def repeats {α : Type} [BEq α] [Hashable α] (items : List α) : List α :=
  repeatsFrom ∅ items

/-- The items without those that have occurred before. -/
def distinctFrom {α : Type} [BEq α] [Hashable α] (seen : Std.HashSet α) : List α → List α
  | [] => []
  | a :: rest =>
    if seen.contains a then distinctFrom seen rest else a :: distinctFrom (seen.insert a) rest

/-- The items without repetition, in order of their first occurrence. -/
def distinct {α : Type} [BEq α] [Hashable α] (items : List α) : List α :=
  distinctFrom ∅ items

/-- The place that an occurrence takes in its parent's series. -/
def place? (t : Task) : Option (TaskId × Nat) :=
  match t.parent, t.mask with
  | some parent, some mask => some (parent, mask)
  | _, _ => none

/-- Fails at the first id that appears a second time. -/
def checkIds (tasks : List Task) : Except Fault Unit :=
  match repeats (tasks.map Task.id) with
  | [] => .ok ()
  | id :: _ => .error (.duplicateId id)

/-- Fails at the first place that is taken a second time. -/
def checkMasks (tasks : List Task) : Except Fault Unit :=
  match repeats (tasks.filterMap place?) with
  | [] => .ok ()
  | (parent, mask) :: _ => .error (.duplicateMask parent mask)

/-- Fails at the first violation, of ids before places. -/
def check (tasks : List Task) : Except Fault Unit := do
  checkIds tasks
  checkMasks tasks

/-- A series in the report. -/
structure SeriesSummary where
  parent : TaskId
  nextMask : Nat
  /-- A mark for every place below `nextMask`, and a space where no occurrence is. -/
  marks : String
deriving DecidableEq

/-- What the stored tasks look like as a whole. -/
structure Report where
  total : Nat
  duplicateIds : List TaskId
  duplicateMasks : List (TaskId × Nat)
  series : List SeriesSummary
deriving DecidableEq

/-- The occurrences of a parent that have a place. -/
def placedChildren (tasks : List Task) (parent : TaskId) : List Task :=
  tasks.filter fun t => t.parent == some parent && t.mask.isSome

/-- The parents of all series in ascending order: the recurring parents, and every parent that an
occurrence with a place names. -/
def seriesParents (tasks : List Task) : List TaskId :=
  let parents := (tasks.filter Task.isRecurringParent).map Task.id
  let named := (tasks.filterMap place?).map Prod.fst
  (distinct (parents ++ named)).mergeSort TaskId.le

/-- The marks of a series by place, a later occurrence at the same place prevailing. -/
def marksOf (children : List Task) (size : Nat) : String :=
  let marks := children.foldl (fun (marks : Array Char) t =>
    match t.mask with
    | some m => marks.setIfInBounds m t.status.mark
    | none => marks) (Array.replicate size ' ')
  String.ofList marks.toList

/-- The row of a series. -/
def summary (tasks : List Task) (parent : TaskId) : SeriesSummary :=
  let children := placedChildren tasks parent
  let next := Series.nextMask children
  ⟨parent, next, marksOf children next⟩

/-- The report over all tasks. -/
def diagnose (tasks : List Task) : Report :=
  let parents := seriesParents tasks
  { total := tasks.length
    duplicateIds := distinct (repeats (tasks.map Task.id))
    duplicateMasks := parents.flatMap fun p =>
      (repeats ((placedChildren tasks p).filterMap Task.mask)).map (p, ·)
    series := parents.map (summary tasks) }

/-- The report over all tasks, with the places behind the series counted in 32 bits. -/
def diagnose? (tasks : List Task) : Option Report :=
  if (seriesParents tasks).all fun p => (Series.nextMask? (placedChildren tasks p)).isSome then
    some (diagnose tasks)
  else none

namespace Report

/-- There is no violation. -/
def isOk (r : Report) : Bool :=
  r.duplicateIds.isEmpty && r.duplicateMasks.isEmpty

/-- The first violation of the report, of ids before places. -/
def violation? (r : Report) : Option Fault :=
  match r.duplicateIds, r.duplicateMasks with
  | id :: _, _ => some (.duplicateId id)
  | [], (parent, mask) :: _ => some (.duplicateMask parent mask)
  | [], [] => none

/-- The report itself, unless it shows a violation. -/
def result (r : Report) : Except Fault Report :=
  match r.violation? with
  | some fault => .error fault
  | none => .ok r

/-- The record of a report, its keys in alphabetical order. -/
def toJson (r : Report) : Json :=
  .obj [
    ("duplicate_ids", .arr (r.duplicateIds.map fun id => .str id.text)),
    ("duplicate_masks", .arr (r.duplicateMasks.map fun (id, m) => .arr [.str id.text, .int m])),
    ("series", .arr (r.series.map fun s =>
      .obj [("mask", .str s.marks), ("next_mask", .int s.nextMask),
        ("parent_id", .str s.parent.text)])),
    ("total", .int r.total)]

end Report

end Integrity

end TaskSeries
