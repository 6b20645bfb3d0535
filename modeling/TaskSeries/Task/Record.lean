import TaskSeries.Calendar.InstantReader
import TaskSeries.Calendar.InstantText
import TaskSeries.Json.Basic
import TaskSeries.Period.Text
import TaskSeries.Task.Basic

/-!
Periods and tasks as JSON records.
-/

namespace TaskSeries

open TaskSeries.Calendar

namespace Period

/-- The record of a period; `kind` tells the two sorts apart. -/
def toJson : Period → Json
  | calendar unit step skipWeekends =>
    .obj [("kind", .str "calendar"), ("unit", .str unit.name), ("step", .int step),
      ("skip_weekends", .bool skipWeekends)]
  | exact seconds => .obj [("kind", .str "exact"), ("seconds", .int seconds)]

/-- The fields of a calendar period. -/
def calendarFields : List String := ["unit", "step", "skip_weekends"]

/-- The fields of an exact period. -/
def exactFields : List String := ["seconds"]

/-- Reads a calendar unit: its name, or an object with nothing under the name. -/
def unitOfJson? : Json → Option CalendarUnit
  | .str name => CalendarUnit.ofName? name
  | .obj [(name, .null)] => CalendarUnit.ofName? name
  | .obj [(name, .obj [])] => CalendarUnit.ofName? name
  | _ => none

/-- Reads the fields of a period of the given kind. -/
def ofFields? (kind : String) (fields : Json) : Option Period :=
  match kind with
  | "calendar" => do
    let members ← fields.record? calendarFields
    let unit ← (← Json.lookupOnce "unit" members) |> unitOfJson?
    let step ← (← Json.lookupOnce "step" members).nat32?
    let skipWeekends ← (← Json.lookupOnce "skip_weekends" members).bool?
    some (calendar unit step skipWeekends)
  | "exact" => do
    let members ← fields.record? exactFields
    let seconds ← (← Json.lookupOnce "seconds" members).int64?
    some (exact seconds)
  | _ => none

/-- Reads the record of a period. All fields of its kind are needed once, others are passed over; in an
array the kind comes first. -/
def ofJson? : Json → Option Period
  | .obj members => do
    let kind ← (← Json.lookupOnce "kind" members).str?
    ofFields? kind (.obj members)
  | .arr (.str kind :: fields) => ofFields? kind (.arr fields)
  | _ => none

end Period

namespace Task

/-- The record of an optional value. -/
def optionJson {α : Type} (write : α → Json) : Option α → Json
  | some a => write a
  | none => .null

/-- The record of an instant. -/
def instantJson (i : Instant) : Json := .str i.text

/-- The record of an identifier. -/
def idJson (id : TaskId) : Json := .str id.text

/-- The record of a task, its keys in alphabetical order. -/
def toJson (t : Task) : Json :=
  .obj [
    ("description", .str t.description),
    ("due", optionJson instantJson t.due),
    ("end", optionJson instantJson t.finished),
    ("entry", instantJson t.entry),
    ("id", idJson t.id),
    ("mask_index", optionJson (fun n => .int n) t.mask),
    ("modified", instantJson t.modified),
    ("parent_id", optionJson idJson t.parent),
    ("priority", Json.ofText? t.priority),
    ("project", Json.ofText? t.project),
    ("recur", optionJson Period.toJson t.recur),
    ("status", .str t.status.name),
    ("tags", .arr (t.tags.map .str)),
    ("until", optionJson instantJson t.expiry)]

/-- The fields of a task in the order of an array. -/
def fieldNames : List String :=
  ["id", "description", "status", "project", "priority", "tags", "entry", "modified", "end", "due",
    "until", "recur", "parent_id", "mask_index"]

/-- Reads the record of an instant. -/
def instantOfJson? (j : Json) : Option Instant :=
  j.str?.bind Instant.ofRecord?

/-- Reads the record of an identifier. -/
def idOfJson? (j : Json) : Option TaskId :=
  j.str?.bind TaskId.ofText?

/-- Reads the members of a task's record. Only optional fields may be missing or null. -/
def ofMembers? (members : List (String × Json)) : Option Task := do
  let field (name : String) := Json.lookup name members
  let id ← (← field "id") |> idOfJson?
  let description ← (← field "description").str?
  let status ← (← (← field "status").caseName?) |> Status.ofName?
  let project ← Json.optional? Json.str? (field "project")
  let priority ← Json.optional? Json.str? (field "priority")
  let tags ← (← field "tags").strs?
  let entry ← (← field "entry") |> instantOfJson?
  let modified ← (← field "modified") |> instantOfJson?
  let finished ← Json.optional? instantOfJson? (field "end")
  let due ← Json.optional? instantOfJson? (field "due")
  let expiry ← Json.optional? instantOfJson? (field "until")
  let recur ← Json.optional? Period.ofJson? (field "recur")
  let parent ← Json.optional? idOfJson? (field "parent_id")
  let mask ← Json.optional? Json.nat32? (field "mask_index")
  some ⟨id, description, status, project, priority, tags, entry, modified, finished, due, expiry,
    recur, parent, mask⟩

/-- Reads the record of a task: an object, or an array of all fields. -/
def ofJson? : Json → Option Task
  | .obj members => ofMembers? members
  | .arr items => if items.length = fieldNames.length then ofMembers? (fieldNames.zip items) else none
  | _ => none

end Task

end TaskSeries
