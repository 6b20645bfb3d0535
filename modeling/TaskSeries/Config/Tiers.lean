import TaskSeries.Config.Record
import TaskSeries.Yaml.Document

/-!
Where the configuration comes from: the defaults, then the file of the project and the file of the
user, then the environment, each overriding what comes before it. A file that is asked for explicitly
takes the place of the two others.
-/

namespace TaskSeries

/-- The files that a configuration is read from. -/
inductive ConfigSource
  /-- The directories of the project and the user; a file that is missing or cannot be read does not
  count. -/
  | tiers (project user : Option String)
  /-- One file, which must be readable. -/
  | explicit (path : String)
deriving DecidableEq, Repr

namespace ConfigSource

/-- The path of an entry of a directory. -/
def entryOf (dir name : String) : String :=
  if dir.isEmpty || dir.endsWith "/" then dir ++ name else dir ++ "/" ++ name

/-- The paths of the files, those that count less first. -/
def paths : ConfigSource → List String
  | tiers project user => ([project, user].filterMap id).map (entryOf · "config.yaml")
  | explicit path => [path]

/-- The files that the environment, a home directory and a path given by the user lead to. -/
def discover (env : String → Option String) (home path : Option String) : ConfigSource :=
  match path.or (env "TASK_RECUR_CONFIG_PATH") with
  | some path => explicit path
  | none =>
    tiers (some ((env "TASK_RECUR_PROJECT_DIR").getD "task-recur"))
      ((env "TASK_RECUR_USER_DIR").or (home.map (entryOf · ".task-recur")))

end ConfigSource

namespace Config

/-- A configuration, and the files that contributed to it. -/
structure Loaded where
  sources : List String
  config : Config
deriving DecidableEq, Repr

/-- The variables of the environment that override a setting, with its key. -/
def envOverrides : List (String × String) :=
  [("TASK_RECUR_DB_PATH", "store.db_path"), ("TASK_RECUR_RECURRENCE", "recurrence"),
    ("TASK_RECUR_RECURRENCE_LIMIT", "recurrence.limit"),
    ("TASK_RECUR_UNTIL_POLICY", "recurrence.until_policy"),
    ("TASK_RECUR_CONFIRMATION", "confirmation")]

/-- Applies what the environment overrides. -/
def applyEnv (env : String → Option String) (c : Config) : Except Fault Config :=
  envOverrides.foldlM (fun c (name, key) =>
    match env name with
    | some value => c.set key value
    | none => .ok c) c

/-- The configuration that merged values describe, if it can be used. -/
def ofTiers (values : List Json) : Except Fault Config :=
  match ofJson? (Json.mergeAll (({} : Config).toJson :: values)) with
  | none => .error .configShape
  | some c => c.validate.map fun _ => c

/-- The files of the tiers that can be read, with what they hold. -/
def readable (read : String → Option String) (paths : List String) : List (String × Json) :=
  paths.filterMap fun path => (read path).bind fun text => (Yaml.parse? text).map (path, ·)

/-- The configuration that one file describes. -/
def ofFile (read : String → Option String) (path : String) : Except Fault Config :=
  match (read path).bind Yaml.parse? with
  | none => .error (.configFile path)
  | some value =>
    match ofTiers [value] with
    | .error .configShape => .error (.configFile path)
    | result => result

/-- Loads the configuration from files that `read` gives the text of, and the environment. -/
def load (read env : String → Option String) : ConfigSource → Except Fault Loaded
  | .explicit path => do
    let c ← ofFile read path
    let c ← applyEnv env c
    .ok ⟨[path], c⟩
  | source => do
    let tiers := readable read source.paths
    let c ← ofTiers (tiers.map (·.2))
    let c ← applyEnv env c
    .ok ⟨tiers.map (·.1), c⟩

end Config

end TaskSeries
