import TaskSeries.CommandLine.Reading
import TaskSeries.Tracker.Fields

/-!
Arguments as an invocation: a command with its options, and the options that stand anywhere.
-/

namespace TaskSeries.CommandLine

/-- A command with what was given for it. -/
inductive Action
  | add (description : String) (fields : Fields)
  | list (sort : SortKey) (desc json : Bool)
  | count
  | modify (token : String) (fields : Fields)
  | delete (token : String)
  | done (token : String)
  | gc
  | diag (json : Bool)
deriving DecidableEq, Repr

/-- The arguments of a run. -/
structure Invocation where
  config : Option String
  database : Option String
  rc : List String
  yes : Bool
  no : Bool
  verbose : Bool
  log : String
  action : Action
deriving DecidableEq, Repr

namespace Invocation

/-- The answer to all questions that the arguments give. -/
def scriptedAnswer (i : Invocation) : Option Bool :=
  if i.yes then some true else if i.no then some false else none

end Invocation

namespace Reading

/-- The texts for the fields of a task. -/
def fields (r : Reading) : Fields where
  description := r.value? .description
  due := r.value? .due
  recur := r.value? .recur
  expiry := r.value? .expiry
  project := r.value? .project
  priority := r.value? .priority
  tags := if r.has .tags then some (r.values .tags) else none

/-- The order of a listing. -/
def sort (r : Reading) : SortKey :=
  ((r.value? .sort).bind SortKey.ofText?).getD SortKey.byDue

/-- The first word. -/
def token (r : Reading) : String :=
  r.words.head?.getD ""

/-- The command with what was read for it. -/
def action (r : Reading) : CommandName → Action
  | .add => .add (String.intercalate " " r.words) r.fields
  | .list => .list r.sort (r.has .desc) (r.has .json)
  | .count => .count
  | .modify => .modify r.token r.fields
  | .delete => .delete r.token
  | .done => .done r.token
  | .gc => .gc
  | .diag => .diag (r.has .json)

/-- The reading of the two levels that counts for an option which may stand at both: the one behind the
command if the option is given there. -/
def prevailing (top command : Reading) (o : Opt) : Reading :=
  if command.has o then command else top

end Reading

namespace Invocation

/-- The invocation that the readings of both levels describe. -/
def ofReadings (top command : Reading) (name : CommandName) : Invocation :=
  let source := Reading.prevailing top command
  { config := (source .config).value? .config
    database := (source .database).value? .database
    rc := (source .rc).values .rc
    yes := (source .yes).has .yes
    no := (source .no).has .no
    verbose := (source .verbose).has .verbose
    log := ((source .log).value? .log).getD "2"
    action := command.action name }

/-- Reads the arguments of a run. What stands behind the command is checked before what stands in front
of it. -/
def parse (args : List String) : Except ArgFault Invocation := do
  let (top, command?) ← Reading.read .top false {} args
  match command? with
  | none => do
    let _ ← top.finish .top false
    .error .missingCommand
  | some (name, rest) => do
    let (command, _) ← Reading.read (.command name) false {} rest
    let command ← command.finish (.command name) true
    let top ← top.finish .top true
    .ok (ofReadings top command name)

end Invocation

end TaskSeries.CommandLine
