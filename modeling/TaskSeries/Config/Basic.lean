import TaskSeries.Fault
import TaskSeries.Series.Settings
import TaskSeries.Text.Blank
import TaskSeries.Text.Decimal
import TaskSeries.Text.Power

/-!
The configuration, and the setting of its parts by key: as single settings and as overrides that write
key and value in one text.
-/

namespace TaskSeries

open TaskSeries.Text

/-- The configuration. -/
structure Config where
  recurrence : RecurrenceSettings := {}
  /-- Whether the user is asked before later occurrences change too. -/
  confirmation : Bool := true
  /-- Where tasks are stored. -/
  dbPath : String := ".task-recur/tasks.db"
deriving DecidableEq, Repr

/-- Reads a switch. -/
def Setting.switch (value : String) : Except SettingFault Bool :=
  let word := keyword value
  if ["yes", "y", "on", "true", "1"].contains word then .ok true
  else if ["no", "n", "off", "false", "0"].contains word then .ok false
  else .error (.notYesOrNo word)

/-- Reads a positive number of 32 bits. -/
def Setting.positive (value : String) : Except SettingFault Nat :=
  match natOfText? (trimChars value.toList) with
  | some n =>
    if n = 0 then .error .zero
    else if FitsNat 32 n then .ok n
    else .error (.notPositive value)
  | none => .error (.notPositive value)

/-- Reads an expiry policy. Blanks around it are not allowed. -/
def Setting.policy (value : String) : Except SettingFault ExpiryPolicy :=
  match ExpiryPolicy.ofText? value with
  | some policy => .ok policy
  | none => .error (.notPolicy value)

/-- What a key sets. -/
inductive SettingKey
  | enabled | limit | policy | confirmation | dbPath
deriving DecidableEq, Repr

/-- The setting with a given key. -/
def SettingKey.ofText? (key : String) : Option SettingKey :=
  match key with
  | "recurrence" | "recurrence.enabled" => some .enabled
  | "recurrence.limit" => some .limit
  | "recurrence.until_policy" => some .policy
  | "confirmation" => some .confirmation
  | "store.db_path" | "data.location" => some .dbPath
  | _ => none

namespace Config

/-- Gives a setting the value that a text stands for. -/
def assign (c : Config) : SettingKey → String → Except SettingFault Config
  | .enabled, v => (Setting.switch v).map fun b => { c with recurrence.enabled := b }
  | .limit, v => (Setting.positive v).map fun n => { c with recurrence.limit := n }
  | .policy, v => (Setting.policy v).map fun p => { c with recurrence.policy := p }
  | .confirmation, v => (Setting.switch v).map fun b => { c with confirmation := b }
  | .dbPath, v => .ok { c with dbPath := trim v }

/-- Gives the setting with a key a value. -/
def set (c : Config) (key value : String) : Except Fault Config :=
  match SettingKey.ofText? key with
  | none => .error (.setting key .unknown)
  | some k => (c.assign k value).mapError (.setting key)

/-- Splits an override into key and value. A leading `rc.` does not count, and the sign between the
two is the first equals sign or colon. -/
def splitOverride (item : String) : Except Fault (String × String) :=
  let cs := (afterStart ['r', 'c', '.'] item.toList).getD item.toList
  match splitFirst (fun c => c == '=' || c == ':') cs with
  | none => .error (.setting (String.ofList cs) .noValue)
  | some (key, value) => .ok (String.ofList (trimChars key), String.ofList value)

/-- Applies one override. -/
def override (c : Config) (item : String) : Except Fault Config := do
  let (key, value) ← splitOverride item
  c.set key value

/-- Applies steps in order up to the first that fails, and gives the configuration after those that
did not, with the fault. -/
def applyAll {α : Type} (step : Config → α → Except Fault Config) :
    Config → List α → Config × Option Fault
  | c, [] => (c, none)
  | c, a :: rest =>
    match step c a with
    | .ok next => applyAll step next rest
    | .error f => (c, some f)

/-- Applies overrides in order; those before one that fails stay applied. -/
def applyOverrides (c : Config) (items : List String) : Config × Option Fault :=
  applyAll override c items

/-- Refuses a limit of zero. -/
def validate (c : Config) : Except Fault Unit :=
  if c.recurrence.limit = 0 then .error (.setting "recurrence.limit" .zero) else .ok ()

end Config

end TaskSeries
