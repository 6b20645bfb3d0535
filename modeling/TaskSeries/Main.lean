import Std.Time
import TaskSeries.CommandLine.Session
import TaskSeries.Store.Record
import TaskSeries.Task.Draw

/-!
The program: reads what the command line needs from the system, lets the library decide, and writes what
it answers.
-/

namespace TaskSeries.CommandLine

open TaskSeries.Calendar

/-- What is shown when help is asked for. -/
def usage : String :=
  "Usage: tasks [OPTIONS] <COMMAND>\n\n"
    ++ "Commands: add, list, count, modify, delete, done, gc, diag, help\n\n"
    ++ "Options: --config FILE, --database FILE, --rc KEY=VALUE, --yes, --no, --verbose, --log TARGET,\n"
    ++ "  --help, --version\n"

/-- The variables of the environment that a run looks at. -/
def variableNames : List String :=
  ["TASK_RECUR_CONFIG_PATH", "TASK_RECUR_PROJECT_DIR", "TASK_RECUR_USER_DIR",
    "TASK_RECUR_FAKETIME"] ++ Config.envOverrides.map (·.1)

/-- Looks a name up among pairs. -/
def among (pairs : List (String × String)) (name : String) : Option String :=
  (pairs.find? (·.1 == name)).map (·.2)

/-- The variables that are set. -/
def readVariables : IO (List (String × String)) := do
  let found ← variableNames.mapM fun name => do
    let value ← IO.getEnv name
    return value.map (name, ·)
  return found.filterMap (fun pair => pair)

/-- The text of a file, if it can be read. -/
def readText (path : String) : IO (Option String) := do
  try
    let text ← IO.FS.readFile path
    return some text
  catch _ => return none

/-- The texts of the files that can be read. -/
def readTexts (paths : List String) : IO (List (String × String)) := do
  let found ← paths.mapM fun path => do
    let text ← readText path
    return text.map (path, ·)
  return found.filterMap (fun pair => pair)

/-- What the clock of the system shows. -/
def readClock : IO Instant := do
  let now ← Std.Time.Timestamp.now
  let nanos := now.toNanosecondsSinceUnixEpoch.val
  return (Instant.of? (nanos / 1000000000) (nanos % 1000000000).toNat).getD Instant.epoch

/-- A random number of 128 bits. -/
def readSeed : IO Nat := do
  let bytes ← IO.getRandomBytes 16
  return bytes.toList.foldl (fun n b => 256 * n + b.toNat) 0

/-- Why a file cannot be opened, in words. -/
def reasonOf (e : IO.Error) : String :=
  match e with
  | .noFileOrDirectory .. => PathFault.missing.message
  | .inappropriateType .. => PathFault.isDirectory.message
  | e => toString e

/-- Opens the log, and gives the reason why it cannot be opened. -/
def openLogFile (target : LogTarget) : IO (Option String) := do
  match target with
  | .file path =>
    try
      let _ ← IO.FS.Handle.mk path .append
      return none
    catch e => return some (reasonOf e)
  | _ => return none

/-- The text of bytes. -/
def textOf (bytes : List Nat) : String :=
  (String.fromUTF8? ⟨(bytes.map UInt8.ofNat).toArray⟩).getD ""

/-- Creates the directory that a path is in. -/
def createParent (path : String) : IO Unit := do
  let bytes := bytesOf path
  let root := if isAbsolute bytes then "/" else ""
  let dir := root ++ String.intercalate "/" ((parentParts bytes).map textOf)
  if !dir.isEmpty then IO.FS.createDirAll dir

/-- Opens the store that a text locates, creating the directories on the way. -/
def openStoreFile (location : String) : IO (Option (StoreLocation × Store)) := do
  try
    createParent location
    match StoreLocation.ofText? location with
    | none => return none
    | some l =>
      if l.isTransient then return some (l, {})
      else
        let path := textOf l.path
        if l.access = .create then (← IO.FS.Handle.mk path .append).flush
        let text ← IO.FS.readFile path
        return (Store.ofText? text).map fun s => (l, { s with readOnly := l.isReadOnly })
  catch _ => return none

/-- Writes a store back to where it is kept. -/
def writeStoreFile (l : StoreLocation) (s : Store) : IO Unit := do
  if !l.isTransient && !l.isReadOnly then IO.FS.writeFile (textOf l.path) s.toText

/-- Puts questions and gives the line that the user types. -/
def ask (questions : List String) : IO String := do
  let err ← IO.getStderr
  for question in questions do
    err.putStr (prompt question)
  err.flush
  let input ← IO.getStdin
  input.getLine

/-- Executes an invocation on an open store, asking the user where a question comes up. -/
def converse (draw : Nat → TaskId) (i : Invocation) (config : Config) (now : Instant) (s : Store) :
    IO (Output × Store) := do
  let (silent, next) := performOn draw i config now .no s
  if silent.questions.isEmpty then return (silent, next)
  else
    let line ← ask silent.questions
    return performOn draw i config now (answerOfLine line) s

/-- Writes what a run answers, and gives its exit status. Questions have been put before. -/
def report (o : Output) : IO UInt32 := do
  let out ← IO.getStdout
  let err ← IO.getStderr
  out.putStr o.stdout
  out.flush
  err.putStr o.complaint
  err.flush
  return o.status.toUInt32

/-- Executes an invocation. -/
def execute (i : Invocation) : IO UInt32 := do
  let err ← IO.getStderr
  if let some reason ← openLogFile (LogTarget.ofText i.log) then err.putStr (logWarning reason)
  let found ← readVariables
  let home ← IO.getEnv "HOME"
  let home := home.filter (!·.isEmpty)
  let texts ← readTexts (i.configSource (among found) home).paths
  let clock ← readClock
  match i.prepare ⟨among found, home, among texts, clock⟩ with
  | .error f => report (Output.failed f)
  | .ok (config, now) =>
    match ← openStoreFile config.dbPath with
    | none => report (Output.failed (.store .unavailable))
    | some (l, store) =>
      let seed ← readSeed
      let (output, next) ← converse (TaskId.drawn seed) i config now store
      writeStoreFile l next
      report output

end TaskSeries.CommandLine

open TaskSeries.CommandLine in
/-- Runs the program with the given arguments. -/
def main (args : List String) : IO UInt32 := do
  match Invocation.parse args with
  | .ok i => execute i
  | .error f =>
    let stream ← if f.exitStatus = 0 then IO.getStdout else IO.getStderr
    if f = .displayVersion then stream.putStr "tasks 0.1.0\n"
    else do
      if f.exitStatus != 0 then stream.putStr ("error: " ++ f.name ++ "\n\n")
      stream.putStr usage
    return f.exitStatus.toUInt32
