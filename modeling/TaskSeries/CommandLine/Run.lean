import TaskSeries.Calendar.InstantReader
import TaskSeries.CommandLine.Invocation
import TaskSeries.CommandLine.LogTarget
import TaskSeries.Config.Tiers
import TaskSeries.Json.Printer
import TaskSeries.Listing.Markdown
import TaskSeries.Task.Record
import TaskSeries.Tracker.Command

/-!
One run of the program: from the arguments and the surroundings to the configuration, and from a command
on the tracker to what is written and the exit status.
-/

namespace TaskSeries.CommandLine

open TaskSeries.Text TaskSeries.Calendar

/-- What a run finds around it. -/
structure Surroundings where
  env : String → Option String
  home : Option String
  /-- The text of a file that can be read. -/
  read : String → Option String
  /-- What the clock shows. -/
  clock : Instant

namespace Surroundings

/-- The current instant: the environment may fix it. -/
def now (s : Surroundings) : Except Fault Instant :=
  match s.env "TASK_RECUR_FAKETIME" with
  | none => .ok s.clock
  | some text =>
    match Instant.ofRfc3339? (trim text) with
    | some i => .ok i
    | none => .error (.invalidDate text)

end Surroundings

namespace Invocation

/-- The files that the configuration of a run is read from. -/
def configSource (i : Invocation) (env : String → Option String) (home : Option String) :
    ConfigSource :=
  ConfigSource.discover env home i.config

/-- The configuration and the current instant of a run. What the arguments set counts more than every
other source. -/
def prepare (i : Invocation) (s : Surroundings) : Except Fault (Config × Instant) := do
  let loaded ← Config.load s.read s.env (i.configSource s.env s.home)
  let config := { loaded.config with dbPath := i.database.getD loaded.config.dbPath }
  match config.applyOverrides i.rc with
  | (_, some f) => .error f
  | (config, none) => do
    let now ← s.now
    .ok (config, now)

/-- Who answers the questions of a run, `typed` being what the user would answer. -/
def respondent (i : Invocation) (typed : Answer) : Respondent :=
  match i.scriptedAnswer with
  | some answer => .fixed answer
  | none => .script [typed]

end Invocation

/-- What a line typed by the user answers. -/
def answerOfLine (line : String) : Answer :=
  if ["y", "yes"].contains (keyword line) then .yes else .no

/-- A question as it is put. -/
def prompt (question : String) : String :=
  question ++ " (yes/no) "

namespace Action

/-- The command of an action. -/
def command : Action → Command
  | add description fields => .add description { fields with description := none }
  | list sort desc _ => .list (if desc then ⟨sort.field, true⟩ else sort)
  | count => .count
  | modify token fields => .modify token fields
  | delete token => .delete token
  | done token => .done token
  | gc => .gc
  | diag _ => .diag

/-- The action asks for records instead of text. -/
def wantsJson : Action → Bool
  | list _ _ json => json
  | diag json => json
  | _ => false

/-- The verb for the tasks that the action changes. -/
def verb : Action → String
  | add .. => "add"
  | modify .. => "modify"
  | delete .. => "delete"
  | done .. => "done"
  | _ => ""

/-- What is written for a reply. -/
def rendered (a : Action) : Reply → String
  | .task t => Listing.changedMarkdown a.verb [t]
  | .tasks l => if a.wantsJson then (Json.arr (l.map Task.toJson)).text ++ "\n" else Listing.markdown l
  | .number n => natText n ++ "\n"
  | .pass r =>
    "Generated " ++ natText r.generated ++ " instance(s), expired " ++ natText r.expired ++ ".\n"
  | .outcome o => Listing.changedMarkdown a.verb o.changed
  | .report r => if a.wantsJson then r.toJson.text ++ "\n" else Listing.reportMarkdown r

end Action

/-- The fault that a reply shows although the command succeeded: a report with a violation. -/
def faultOf : Reply → Option Fault
  | .report r => r.violation?
  | _ => none

/-- What a run writes, and its exit status. -/
structure Output where
  stdout : String := ""
  /-- That the log cannot be written. -/
  warning : String := ""
  /-- The questions put to the user, in order. -/
  questions : List String := []
  /-- What went wrong. -/
  complaint : String := ""
  status : Nat := 0
deriving DecidableEq, Repr

namespace Output

/-- The output of a run that ends with a fault. -/
def failed (f : Fault) : Output :=
  { complaint := f.message ++ "\n", status := f.exitStatus }

/-- Everything that goes to the user and not into the result. -/
def stderr (o : Output) : String :=
  o.warning ++ String.join (o.questions.map prompt) ++ o.complaint

end Output

/-- The output for the result of an action. -/
def outputOf (a : Action) (result : Except Fault Reply) : Output :=
  match result with
  | .error f => Output.failed f
  | .ok reply =>
    match faultOf reply with
    | some f => { Output.failed f with stdout := a.rendered reply }
    | none => { stdout := a.rendered reply }

/-- Executes an action on the tracker. -/
def perform (draw : Nat → TaskId) (a : Action) (t : Tracker) : Output × Tracker :=
  let (result, next) := t.run draw a.command
  ({ outputOf a result with questions := next.asked.drop t.asked.length }, next)

/-- Executes an invocation on a store that is open. -/
def performOn (draw : Nat → TaskId) (i : Invocation) (config : Config) (now : Instant)
    (typed : Answer) (s : Store) : Output × Store :=
  let tracker : Tracker :=
    { store := s, config := config, now := now, respondent := i.respondent typed }
  let (output, next) := perform draw i.action tracker
  (output, next.store)

/-- The warning that the log cannot be written, with the reason. -/
def logWarning (reason : String) : String :=
  "Warning: logging disabled: " ++ reason ++ "\n"

end TaskSeries.CommandLine
