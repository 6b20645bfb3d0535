import TaskSeries.Json.Printer
import TaskSeries.Store.Cell

/-!
The text in which a store is kept: a header line, then a line for every row.
-/

namespace TaskSeries

open TaskSeries.Text

namespace Content

/-- The record of content. -/
def toJson : Content → Json
  | number n => .int n
  | fraction negative r =>
    .obj [("negative", .bool negative), ("num", .str (natText r.num)), ("den", .str (natText r.den))]
  | infinite negative => .obj [("negative", .bool negative)]
  | text s => .str s

/-- Reads a number in decimal digits. -/
def natOfJson? (j : Json) : Option Nat :=
  j.str?.bind fun s => natOfText? s.toList

/-- Reads the record of content. -/
def ofJson? : Json → Option Content
  | .int n => some (number n)
  | .str s => some (text s)
  | .obj [("negative", .bool negative)] => some (infinite negative)
  | .obj [("negative", .bool negative), ("num", num), ("den", den)] => do
    some (fraction negative ⟨← natOfJson? num, ← natOfJson? den⟩)
  | _ => none

end Content

namespace Column

/-- The name of a column. -/
def name : Column → String
  | status => "status"
  | tags => "tags"
  | entry => "entry"
  | modified => "modified"
  | finished => "end"
  | due => "due"
  | expiry => "until"
  | recur => "recur"
  | mask => "mask_index"

/-- All columns. -/
def all : List Column :=
  [status, tags, entry, modified, finished, due, expiry, recur, mask]

/-- The column with a given name. -/
def ofName? (s : String) : Option Column :=
  all.find? (·.name == s)

end Column

namespace Row

/-- The record of a row. -/
def toJson (r : Row) : Json :=
  .obj [("task", r.task.toJson),
    ("stray", .obj (r.stray.map fun (c, content) => (c.name, content.toJson)))]

/-- Reads the record of a cell. -/
def cellOfJson? (name : String) (j : Json) : Option (Column × Content) := do
  let column ← Column.ofName? name
  let content ← Content.ofJson? j
  some (column, content)

/-- Reads the record of a row. -/
def ofJson? (j : Json) : Option Row := do
  let task ← (j.get? "task").bind Task.ofJson?
  match j.get? "stray" with
  | some (.obj cells) =>
    let stray ← cells.mapM fun (name, j) => cellOfJson? name j
    some ⟨task, stray⟩
  | _ => none

end Row

namespace Store

/-- The line in front of the rows. -/
def header : String := "@tasks"

/-- The text of a store. -/
def toText (s : Store) : String :=
  String.join ((header :: s.rows.map fun r => r.toJson.text).map (· ++ "\n"))

/-- Reads the text of a store. The empty text is an empty store. -/
def ofText? (text : String) : Option Store :=
  if text.isEmpty then some {}
  else match (text.splitOn "\n").filter (· != "") with
    | first :: lines =>
      if first == header then do
        let rows ← lines.mapM fun line => (Json.parse? line).bind Row.ofJson?
        some { rows := rows }
      else none
    | [] => none

end Store

end TaskSeries
