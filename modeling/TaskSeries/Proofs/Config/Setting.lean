import Mathlib.Tactic.Lemma
import TaskSeries.Config.Basic
import TaskSeries.Json.Basic

/-!
# Settings

The five settings of a configuration, each with the values that it can have, the place where a file
specifies it, the variable of the environment and the keys of overrides that give it a text. To change
one leaves the others alone (`Config.get_put_of_ne`, `Config.put_comm`).
-/

namespace TaskSeries

open Json

/-! ## What there is to a setting -/

namespace SettingKey

/-- The values that a setting can have. -/
def Value : SettingKey → Type
  | enabled => Bool
  | limit => Nat
  | policy => ExpiryPolicy
  | confirmation => Bool
  | dbPath => String

/-- Where a file specifies a setting. -/
def path : SettingKey → List String
  | enabled => ["recurrence", "enabled"]
  | limit => ["recurrence", "limit"]
  | policy => ["recurrence", "until_policy"]
  | confirmation => ["confirmation"]
  | dbPath => ["store", "db_path"]

/-- The value of a setting that a file specifies. -/
def ofJson? : (k : SettingKey) → Json → Option k.Value
  | enabled => bool?
  | limit => nat32?
  | policy => fun j => j.caseName?.bind ExpiryPolicy.ofName?
  | confirmation => bool?
  | dbPath => str?

/-- The value of a setting that a text stands for. -/
def read : (k : SettingKey) → String → Except SettingFault k.Value
  | enabled => Setting.switch
  | limit => Setting.positive
  | policy => Setting.policy
  | confirmation => Setting.switch
  | dbPath => fun text => .ok (Text.trim text)

/-- The variable of the environment that gives a setting a text. -/
def envName : SettingKey → String
  | enabled => "TASK_RECUR_RECURRENCE"
  | limit => "TASK_RECUR_RECURRENCE_LIMIT"
  | policy => "TASK_RECUR_UNTIL_POLICY"
  | confirmation => "TASK_RECUR_CONFIRMATION"
  | dbPath => "TASK_RECUR_DB_PATH"

/-- The keys of a setting. -/
def names : SettingKey → List String
  | enabled => ["recurrence", "recurrence.enabled"]
  | limit => ["recurrence.limit"]
  | policy => ["recurrence.until_policy"]
  | confirmation => ["confirmation"]
  | dbPath => ["store.db_path", "data.location"]

/-- The text that an override gives to a setting, if it names this setting. -/
def override? (k : SettingKey) (item : String) : Option String :=
  match Config.splitOverride item with
  | .ok (key, text) => if key ∈ k.names then some text else none
  | .error _ => none

lemma ofJson?_null (k : SettingKey) : k.ofJson? .null = none := by
  cases k <;> rfl

/-- A key names a setting exactly when it is among the names of the setting. -/
lemma ofText?_eq_some_iff {k : SettingKey} {key : String} : ofText? key = some k ↔ key ∈ k.names := by
  unfold ofText?
  split <;> cases k <;> simp_all [names]

end SettingKey

namespace Config

/-- The value of a setting. -/
def get (c : Config) : (k : SettingKey) → k.Value
  | .enabled => c.recurrence.enabled
  | .limit => c.recurrence.limit
  | .policy => c.recurrence.policy
  | .confirmation => c.confirmation
  | .dbPath => c.dbPath

/-- The value of a setting when nothing specifies it. -/
def standard (k : SettingKey) : k.Value := get {} k

/-- Gives a setting a value. -/
def put (c : Config) : (k : SettingKey) → k.Value → Config
  | .enabled, b => { c with recurrence.enabled := b }
  | .limit, n => { c with recurrence.limit := n }
  | .policy, p => { c with recurrence.policy := p }
  | .confirmation, b => { c with confirmation := b }
  | .dbPath, path => { c with dbPath := path }

section
variable {c : Config} {k k' : SettingKey}

lemma assign_eq (text : String) : c.assign k text = (k.read text).map (c.put k) := by
  cases k <;> rfl

@[simp]
lemma get_put (v : k.Value) : (c.put k v).get k = v := by
  cases k <;> rfl

lemma get_put_of_ne (h : k' ≠ k) (v : k'.Value) : (c.put k' v).get k = c.get k := by
  cases k <;> cases k' <;> first | rfl | exact absurd rfl h

/-- Values can be put into different settings in either order. -/
lemma put_comm (h : k ≠ k') (v : k.Value) (v' : k'.Value) :
    (c.put k v).put k' v' = (c.put k' v').put k v := by
  cases k <;> cases k' <;> first | rfl | exact absurd rfl h

end

/-! ## The last entry -/

section
variable {α β : Type} {read : α → Option β} {standard v : β} {entries later : List α}

/-- Reads the last of several entries; without any there is the standard value. -/
def lastRead (read : α → Option β) (standard : β) (entries : List α) : Option β :=
  entries.getLast?.elim (some standard) read

/-- The last value of two lists is that of the second one, read with the value of the first as its
standard. -/
lemma lastRead_append (h : lastRead read standard entries = some v) :
    lastRead read standard (entries ++ later) = lastRead read v later := by
  unfold lastRead at h ⊢
  rw [List.getLast?_append]
  cases later.getLast? with
  | none => exact h
  | some x => rfl

lemma lastRead_map {γ : Type} {f : γ → α} {entries : List γ} :
    lastRead read standard (entries.map f) = lastRead (fun x => read (f x)) standard entries := by
  unfold lastRead
  rw [List.getLast?_map]
  cases entries.getLast? <;> rfl

end

end Config

end TaskSeries
