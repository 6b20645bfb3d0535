import TaskSeries.Config.Basic
import TaskSeries.Json.Basic

/-!
The configuration as a record. What a record leaves out has its default, what it adds is ignored, and
a section may also be a list of its fields in order.
-/

namespace TaskSeries

open Json

/-- Reads a field of a record: a missing one has its default, and null is no value. -/
def Config.field {α : Type} (members : List (String × Json)) (key : String) (default : α)
    (read : Json → Option α) : Option α :=
  match lookup key members with
  | none => some default
  | some j => read j

/-- Reads the settings of recurrence. -/
def RecurrenceSettings.ofJson? (j : Json) : Option RecurrenceSettings := do
  let ms ← record? ["enabled", "limit", "until_policy"] j
  let standard : RecurrenceSettings := {}
  let enabled ← Config.field ms "enabled" standard.enabled bool?
  let limit ← Config.field ms "limit" standard.limit nat32?
  let policy ← Config.field ms "until_policy" standard.policy fun j =>
    j.caseName?.bind ExpiryPolicy.ofName?
  some ⟨enabled, limit, policy⟩

/-- The settings of recurrence as a record. -/
def RecurrenceSettings.toJson (s : RecurrenceSettings) : Json :=
  obj [("enabled", bool s.enabled), ("limit", int s.limit), ("until_policy", str s.policy.name)]

namespace Config

/-- Reads the place of the store. -/
def storeOfJson? (j : Json) : Option String := do
  let ms ← record? ["db_path"] j
  field ms "db_path" ({} : Config).dbPath str?

/-- Reads a configuration. -/
def ofJson? (j : Json) : Option Config := do
  let ms ← record? ["recurrence", "confirmation", "store"] j
  let standard : Config := {}
  let recurrence ← field ms "recurrence" standard.recurrence RecurrenceSettings.ofJson?
  let confirmation ← field ms "confirmation" standard.confirmation bool?
  let dbPath ← field ms "store" standard.dbPath storeOfJson?
  some ⟨recurrence, confirmation, dbPath⟩

/-- A configuration as a record. -/
def toJson (c : Config) : Json :=
  obj [("recurrence", c.recurrence.toJson), ("confirmation", bool c.confirmation),
    ("store", obj [("db_path", str c.dbPath)])]

end Config

end TaskSeries
