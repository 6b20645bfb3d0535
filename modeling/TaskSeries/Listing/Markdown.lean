import TaskSeries.Calendar.InstantText
import TaskSeries.Period.Text
import TaskSeries.Series.Integrity
import TaskSeries.Task.Basic

/-!
Listings, reports and summaries of changes as markdown.
-/

namespace TaskSeries

open TaskSeries.Calendar TaskSeries.Text

namespace Listing

/-- What stands in front of a task of high priority. -/
def priorityMarker : Option String → String
  | some "H" | some "high" => "!!! "
  | _ => ""

/-- The line of a task in a listing. -/
def taskLine (t : Task) : String :=
  "- " ++ priorityMarker t.priority ++ t.description ++ " \x60" ++ t.id.shortText ++ "\x60"
    ++ (t.project.map fun p => " [" ++ p ++ "]").getD ""
    ++ (t.due.map fun d => " due " ++ d.minuteText).getD ""
    ++ (t.recur.map fun r => " (" ++ r.text ++ ")").getD ""
    ++ "\n"

/-- A listing of tasks in the order given. -/
def markdown (tasks : List Task) : String :=
  "# Tasks (" ++ natText tasks.length ++ ")\n\n" ++ String.join (tasks.map taskLine)

/-- What happened to a changed task, in one word. -/
def pastVerb (verb : String) : Status → String
  | .deleted => "Deleted"
  | .completed => "Completed"
  | .pending | .waiting => if verb = "add" then "Created" else "Modified"

/-- One line for every changed task. -/
def changedMarkdown (verb : String) (changed : List Task) : String :=
  String.join (changed.map fun t =>
    pastVerb verb t.status ++ " task \x60" ++ t.id.shortText ++ "\x60 '" ++ t.description ++ "'.\n")

/-- The lines about ids that appear twice. -/
def duplicateIdLines (ids : List TaskId) : String :=
  if ids.isEmpty then "- **duplicate ids**: none\n"
  else
    "- **duplicate ids**: " ++ natText ids.length ++ "\n"
      ++ String.join (ids.map fun id => "  - \x60" ++ id.text ++ "\x60\n")

/-- The lines about places that are taken twice; nothing when there are none. -/
def duplicateMaskLines (masks : List (TaskId × Nat)) : String :=
  if masks.isEmpty then ""
  else
    "- **duplicate mask indices**: " ++ natText masks.length ++ "\n"
      ++ String.join (masks.map fun (id, m) => "  - \x60" ++ id.text ++ "\x60 #" ++ natText m ++ "\n")

/-- The section about the series; nothing when there are none. -/
def seriesLines (series : List Integrity.SeriesSummary) : String :=
  if series.isEmpty then ""
  else
    "\n## Recurring series\n\n"
      ++ String.join (series.map fun s =>
        "- \x60" ++ s.parent.text ++ "\x60 next " ++ natText s.nextMask ++ " [" ++ s.marks ++ "]\n")

/-- An integrity report. -/
def reportMarkdown (r : Integrity.Report) : String :=
  "# Diagnostics\n\n- **tasks**: " ++ natText r.total ++ "\n" ++ duplicateIdLines r.duplicateIds
    ++ duplicateMaskLines r.duplicateMasks ++ seriesLines r.series

end Listing

end TaskSeries
