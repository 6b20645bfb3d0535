/-!
The commands and options of the command line, and where each of them may stand.
-/

namespace TaskSeries.CommandLine

/-- The name of a command. -/
inductive CommandName
  | add | list | count | modify | delete | done | gc | diag
deriving DecidableEq, Repr

/-- The command with a given name. -/
def CommandName.ofText? (s : String) : Option CommandName :=
  match s with
  | "add" => some add
  | "list" => some list
  | "count" => some count
  | "modify" => some modify
  | "delete" => some delete
  | "done" => some done
  | "gc" => some gc
  | "diag" => some diag
  | _ => none

/-- An option. -/
inductive Opt
  | config | database | rc | yes | no | verbose | log
  | help | version
  | due | recur | expiry | project | priority | tags | description
  | sort | desc | json
deriving DecidableEq, Repr

namespace Opt

/-- The name of an option behind two dashes. -/
def long : Opt → String
  | config => "config"
  | database => "database"
  | rc => "rc"
  | yes => "yes"
  | no => "no"
  | verbose => "verbose"
  | log => "log"
  | help => "help"
  | version => "version"
  | due => "due"
  | recur => "recur"
  | expiry => "until"
  | project => "project"
  | priority => "priority"
  | tags => "tags"
  | description => "description"
  | sort => "sort"
  | desc => "desc"
  | json => "json"

/-- The letter of an option behind one dash. -/
def short? : Opt → Option Char
  | config => some 'c'
  | database => some 'd'
  | verbose => some 'v'
  | log => some 'l'
  | help => some 'h'
  | version => some 'V'
  | _ => none

/-- The option is followed by a value. -/
def takesValue : Opt → Bool
  | yes | no | verbose | help | version | desc | json => false
  | _ => true

/-- The option may be given several times; its values add up. -/
def isRepeatable : Opt → Bool
  | rc | tags => true
  | _ => false

end Opt

/-- A part of the command line: what stands before the command, or behind it. -/
inductive Level
  | top
  | command (name : CommandName)
deriving DecidableEq, Repr

/-- How many words besides options a level takes. -/
inductive Words
  | none | one | many
deriving DecidableEq, Repr

namespace Level

/-- The options that may stand at every level. -/
def everywhere : List Opt :=
  [.config, .database, .rc, .yes, .no, .verbose, .log, .help]

/-- The options for the fields of a task. -/
def fields : List Opt :=
  [.due, .recur, .expiry, .project, .priority, .tags]

/-- The options that may stand at a level. -/
def options : Level → List Opt
  | top => .version :: everywhere
  | command .add => everywhere ++ fields
  | command .modify => everywhere ++ .description :: fields
  | command .list => everywhere ++ [.sort, .desc, .json]
  | command .diag => everywhere ++ [.json]
  | command _ => everywhere

/-- The words that a level takes, at least one if it takes any. -/
def words : Level → Words
  | command .add => .many
  | command .modify | command .delete | command .done => .one
  | _ => .none

/-- The option of a level with a name. -/
def long? (level : Level) (name : String) : Option Opt :=
  level.options.find? (·.long == name)

/-- The option of a level with a letter. -/
def short? (level : Level) (letter : Char) : Option Opt :=
  level.options.find? (·.short? == some letter)

end Level

end TaskSeries.CommandLine
