import TaskSeries.CommandLine.Options
import TaskSeries.Listing.Sort

/-!
Reading the arguments of one level of the command line. An option is taken once its value is complete,
which shows when the next argument comes; so a fault of an option may be found after a later one.
-/

namespace TaskSeries.CommandLine

open TaskSeries.Text

/-- Why arguments do not parse, or that they ask for information instead. -/
inductive ArgFault
  | displayHelp
  | displayVersion
  /-- There is nothing at all, so the help is shown. -/
  | nothingGiven
  | missingCommand
  | unknownCommand
  | unknownArgument
  /-- An option is given twice, or with one that excludes it. -/
  | conflict
  | missingArgument
  /-- The value of an option is missing. -/
  | missingValue
  /-- The value of an option is not one of its values. -/
  | invalidValue
  /-- An option without value is given one. -/
  | needlessValue
deriving DecidableEq, Repr

namespace ArgFault

/-- The name of the kind of fault. -/
def name : ArgFault → String
  | displayHelp => "DisplayHelp"
  | displayVersion => "DisplayVersion"
  | nothingGiven => "DisplayHelpOnMissingArgumentOrSubcommand"
  | missingCommand => "MissingSubcommand"
  | unknownCommand => "InvalidSubcommand"
  | unknownArgument => "UnknownArgument"
  | conflict => "ArgumentConflict"
  | missingArgument => "MissingRequiredArgument"
  | missingValue => "InvalidValue"
  | invalidValue => "ValueValidation"
  | needlessValue => "TooManyValues"

/-- The exit status of a run that ends with the fault. -/
def exitStatus : ArgFault → Nat
  | displayHelp | displayVersion => 0
  | _ => 2

end ArgFault

/-- What has been read of a level. -/
structure Reading where
  /-- The options taken, with their values. -/
  given : List (Opt × List String) := []
  words : List String := []
  /-- The last option, not yet taken. While it has no values, it awaits one. -/
  pending : Option (Opt × List String) := none
deriving DecidableEq, Repr

namespace Reading

/-- An option has been taken. -/
def has (r : Reading) (o : Opt) : Bool :=
  r.given.any (·.1 == o)

/-- The values taken for an option. -/
def values (r : Reading) (o : Opt) : List String :=
  r.given.flatMap fun (p, vs) => if p == o then vs else []

/-- The value taken for an option that is given once. -/
def value? (r : Reading) (o : Opt) : Option String :=
  (r.values o).head?

/-- Every value fits the option. -/
def fits (o : Opt) (values : List String) : Bool :=
  match o with
  | .sort => values.all fun v => (SortKey.ofText? v).isSome
  | _ => true

/-- The values that texts give an option: tags are separated by commas. -/
def split (o : Opt) (values : List String) : List String :=
  match o with
  | .tags => values.flatMap (·.splitOn ",")
  | _ => values

/-- Takes an option. -/
def take (r : Reading) (o : Opt) (values : List String) : Except ArgFault Reading :=
  if o.takesValue && values.isEmpty then .error .missingValue
  else if o = .help then .error .displayHelp
  else if o = .version then .error .displayVersion
  else if !o.isRepeatable && r.has o then .error .conflict
  else if !fits o values then .error .invalidValue
  else .ok { r with given := r.given ++ [(o, split o values)] }

/-- Takes the pending option. -/
def settle (r : Reading) : Except ArgFault Reading :=
  match r.pending with
  | none => .ok r
  | some (o, values) => { r with pending := none }.take o values

/-- Takes the pending option, then another one with the given values. -/
def accept (r : Reading) (o : Opt) (values : List String) : Except ArgFault Reading := do
  let r ← r.settle
  r.take o values

/-- Takes the pending option, and makes another one pending. -/
def await (r : Reading) (o : Opt) : Except ArgFault Reading := do
  let r ← r.settle
  .ok { r with pending := some (o, []) }

/-- The pending option awaits a value. -/
def awaits (r : Reading) : Bool :=
  r.pending.any (·.2.isEmpty)

/-- Gives the pending option a value. -/
def give (r : Reading) (value : String) : Reading :=
  { r with pending := r.pending.map fun (o, values) => (o, values ++ [value]) }

/-- An option by name, with a value behind an equals sign or none. -/
def long (level : Level) (r : Reading) (name : String) (value : Option String) :
    Except ArgFault Reading :=
  match level.long? name with
  | none => .error .unknownArgument
  | some o =>
    match value with
    | some v => if o.takesValue then r.accept o [v] else .error .needlessValue
    | none => if o.takesValue then r.await o else r.accept o []

/-- A cluster of options by letter. The rest behind one that takes a value is its value, and an equals
sign in front of it does not count. -/
def short (level : Level) (r : Reading) : List Char → Except ArgFault Reading
  | [] => .ok r
  | c :: cs =>
    match level.short? c with
    | none => .error .unknownArgument
    | some o =>
      if o.takesValue then
        match cs with
        | [] => r.await o
        | '=' :: value => r.accept o [String.ofList value]
        | value => r.accept o [String.ofList value]
      else do
        let r ← r.accept o []
        short level r cs

/-- A word that is no option. `trailing` tells that it stands behind two dashes. -/
def word (level : Level) (trailing : Bool) (r : Reading) (w : String) : Except ArgFault Reading :=
  match level.words with
  | .many => do
    let r ← r.settle
    .ok { r with words := r.words ++ [w] }
  | .one =>
    if r.words.isEmpty then do
      let r ← r.settle
      .ok { r with words := [w] }
    else .error .unknownArgument
  | .none =>
    match level with
    | .command _ => .error .unknownArgument
    | .top =>
      if trailing && (w == "help" || (CommandName.ofText? w).isSome) then .error .unknownArgument
      else .error .unknownCommand

/-- What an argument is by its dashes. -/
inductive Shape
  | long (name : String) (value : Option String)
  | short (letters : List Char)
  | word

/-- The shape of an argument. A dash alone is a word. -/
def shape (w : String) : Shape :=
  match w.toList with
  | '-' :: '-' :: cs =>
    .long (String.ofList (cs.takeWhile (· != '=')))
      (match cs.dropWhile (· != '=') with
        | [] => none
        | _ :: value => some (String.ofList value))
  | '-' :: c :: cs => .short (c :: cs)
  | _ => .word

/-- Reads one argument in front of two dashes. -/
def argument (level : Level) (r : Reading) (w : String) : Except ArgFault Reading :=
  match shape w with
  | .long name value => r.long level name value
  | .short letters => r.short level letters
  | .word => if r.awaits then .ok (r.give w) else r.word level false w

/-- A command at the top, unless an option awaits a value. -/
def commandAt (level : Level) (r : Reading) (w : String) : Option CommandName :=
  if level == .top && !r.awaits then CommandName.ofText? w else none

/-- The word that asks for help on a command. -/
def isHelpAt (level : Level) (r : Reading) (w : String) : Bool :=
  level == .top && !r.awaits && w == "help"

/-- What the help is asked for: nothing else than one command, or help itself. -/
def helpOn : List String → ArgFault
  | [] => .displayHelp
  | [w] => if w == "help" || (CommandName.ofText? w).isSome then .displayHelp else .unknownCommand
  | _ => .unknownCommand

/-- Reads the arguments of a level up to a command, and gives the arguments behind it. -/
def read (level : Level) (trailing : Bool) (r : Reading) :
    List String → Except ArgFault (Reading × Option (CommandName × List String))
  | [] => .ok (r, none)
  | w :: rest =>
    if trailing then do
      let r ← r.word level true w
      read level true r rest
    else
      match commandAt level r w with
      | some name => .ok (r, some (name, rest))
      | none =>
        if isHelpAt level r w then .error (helpOn rest)
        else if w == "--" then read level true r rest
        else do
          let r ← r.argument level w
          read level false r rest

/-- The options that exclude each other are not both given. -/
def checkConflicts (r : Reading) : Except ArgFault Unit :=
  if r.has .yes && r.has .no then .error .conflict else .ok ()

/-- The words that a level takes are there. -/
def checkWords (level : Level) (r : Reading) : Except ArgFault Unit :=
  match level.words with
  | .none => .ok ()
  | _ => if r.words.isEmpty then .error .missingArgument else .ok ()

/-- Takes the last option of a level, and checks the level as a whole. `complete` tells that a command
follows or none has to. -/
def finish (level : Level) (complete : Bool) (r : Reading) : Except ArgFault Reading := do
  let r ← r.settle
  if !complete then
    if r.given.isEmpty then .error .nothingGiven else .error .missingCommand
  else do
    r.checkConflicts
    r.checkWords level
    .ok r

end Reading

end TaskSeries.CommandLine
