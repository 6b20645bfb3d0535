import TaskSeries.Period.Parser
import TaskSeries.Task.Id

/-!
Everything that can go wrong, by cause, with the message, the code and the exit status that belong to
each cause.
-/

namespace TaskSeries

open TaskSeries.Text

/-- Why a setting does not take a value. -/
inductive SettingFault
  /-- A switch was given the text, which is neither yes nor no. -/
  | notYesOrNo (got : String)
  /-- A count was given the text, which is no number in range. -/
  | notPositive (got : String)
  /-- A count was given as zero. -/
  | zero
  /-- An expiry policy was given the text, which names none. -/
  | notPolicy (got : String)
  /-- No setting has the key. -/
  | unknown
  /-- The override has no sign between key and value. -/
  | noValue
deriving DecidableEq, Repr

/-- The reason in words. -/
def SettingFault.message : SettingFault → String
  | notYesOrNo got => "expected yes or no, got '" ++ got ++ "'"
  | notPositive got => "'" ++ got ++ "' is not a positive integer"
  | zero => "must be a positive integer"
  | notPolicy got => "expected gate or expire, got '" ++ got ++ "'"
  | unknown => "unknown setting"
  | noValue => "expected key=value"

/-- Why the store refuses or fails. -/
inductive StoreFault
  /-- The id is taken. -/
  | idTaken
  /-- The place in the series is taken. -/
  | maskTaken
  /-- The parent is not stored. -/
  | noParent
  /-- A required column would become empty. -/
  | emptied
  /-- No stored task has the id. -/
  | notStored (id : TaskId)
  /-- A row does not read as a task. -/
  | unreadable
  /-- There is no store at the configured place. -/
  | unavailable
  /-- The store cannot be changed. -/
  | readOnly
deriving DecidableEq

/-- The fault in words. -/
def StoreFault.message : StoreFault → String
  | idTaken => "UNIQUE constraint failed: tasks.id"
  | maskTaken => "UNIQUE constraint failed: tasks.parent_id, tasks.mask_index"
  | noParent => "FOREIGN KEY constraint failed"
  | emptied => "NOT NULL constraint failed"
  | notStored id => "Task not found: " ++ id.text
  | unreadable => "unreadable row"
  | unavailable => "unable to open database file"
  | readOnly => "attempt to write a readonly database"

/-- Why a command fails. -/
inductive Fault
  | period (cause : PeriodError)
  | invalidDate (expr : String)
  | missingDue
  | setting (key : String) (cause : SettingFault)
  | noDescription
  | nothingToModify
  | taskNotFound (token : String)
  | ambiguousId (token : String)
  /-- There is nothing to list. -/
  | noMatch
  | duplicateId (id : TaskId)
  | duplicateMask (parent : TaskId) (mask : Nat)
  | store (cause : StoreFault)
  /-- The merged configuration has a value of the wrong kind. -/
  | configShape
  /-- A configuration file that was asked for cannot be used. -/
  | configFile (path : String)
  /-- The question could not be put. -/
  | confirmation
  /-- A place of a series was counted beyond 32 bits: the program stops. -/
  | overflow
deriving DecidableEq

/-- The classes of faults that callers tell apart. -/
inductive FaultCode
  | invalidPeriod | invalidDate | invalidConfig | invalidArgument | missingDue
  | taskNotFound | ambiguousId | noMatch | duplicateId | duplicateMask | databaseError
deriving DecidableEq, Repr

/-- The written form of a code. -/
def FaultCode.name : FaultCode → String
  | invalidPeriod => "INVALID_PERIOD"
  | invalidDate => "INVALID_DATE"
  | invalidConfig => "INVALID_CONFIG"
  | invalidArgument => "INVALID_ARGUMENT"
  | missingDue => "MISSING_DUE"
  | taskNotFound => "TASK_NOT_FOUND"
  | ambiguousId => "AMBIGUOUS_ID"
  | noMatch => "NO_MATCH"
  | duplicateId => "DUPLICATE_ID"
  | duplicateMask => "DUPLICATE_MASK"
  | databaseError => "DATABASE_ERROR"

namespace Fault

/-- The message shown to the user. -/
def message : Fault → String
  | period cause => cause.message
  | invalidDate expr => "'" ++ expr ++ "' is not a valid date"
  | missingDue => "a recurring task must also have a due date"
  | setting key cause => "invalid value for '" ++ key ++ "': " ++ cause.message
  | noDescription => "a task needs a description"
  | nothingToModify => "no fields to modify"
  | taskNotFound token => "task not found: " ++ token
  | ambiguousId token => "id prefix '" ++ token ++ "' matches more than one task"
  | noMatch => "No matches."
  | duplicateId id => "integrity violation: duplicate task id " ++ id.text
  | duplicateMask parent mask =>
    "integrity violation: mask index " ++ natText mask ++ " used twice under parent " ++ parent.text
  | store cause => cause.message
  | configShape => "invalid configuration"
  | configFile path => "failed to load config file " ++ path
  | confirmation => "confirmation unavailable"
  | overflow => "attempt to add with overflow"

/-- The class of a fault. A program that stops has no chance to name one. -/
def code : Fault → Option FaultCode
  | period _ => some .invalidPeriod
  | invalidDate _ => some .invalidDate
  | missingDue => some .missingDue
  | setting _ _ => some .invalidConfig
  | noDescription | nothingToModify => some .invalidArgument
  | taskNotFound _ => some .taskNotFound
  | ambiguousId _ => some .ambiguousId
  | noMatch => some .noMatch
  | duplicateId _ => some .duplicateId
  | duplicateMask _ _ => some .duplicateMask
  | store _ | configShape | configFile _ | confirmation => some .databaseError
  | overflow => none

/-- The tracker itself has broken the structure of a series. -/
def isIntegrity : Fault → Bool
  | duplicateId _ | duplicateMask _ _ => true
  | _ => false

/-- The exit status of a command that ends with the fault. -/
def exitStatus (f : Fault) : Nat :=
  match f.code with
  | some .noMatch => 1
  | some .duplicateId | some .duplicateMask => 3
  | some .databaseError => 4
  | some _ => 2
  | none => 101

end Fault

end TaskSeries
