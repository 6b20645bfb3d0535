import TaskSeries.CommandLine.Directory
import TaskSeries.Json.Parser

/-!
Where a store is kept. A location is a path, or behind `file:` a path with options: bytes may be escaped
by a percent sign and two hexadecimal digits, a question mark starts the options, which are names with
values, and a number sign ends the location.
-/

namespace TaskSeries.CommandLine

open TaskSeries.Text

/-- What may be done with a store. -/
inductive Access
  | readOnly
  /-- The store must exist. -/
  | readWrite
  /-- The store is created if it is missing. -/
  | create
  /-- The store is kept in memory only. -/
  | memory
deriving DecidableEq, Repr

/-- What a file system can do for a store. -/
inductive FileSystem
  | regular
  /-- Processes cannot share a log. -/
  | unshared
  /-- Files are kept in memory only. -/
  | volatile
deriving DecidableEq, Repr

/-- A place for a store. -/
structure StoreLocation where
  path : List Nat
  access : Access := .create
  fileSystem : FileSystem := .regular
  /-- The options in order. -/
  options : List (List Nat × List Nat) := []
deriving DecidableEq, Repr

namespace Access

/-- The access with a given name. -/
def ofName? (name : List Nat) : Option Access :=
  [("ro", readOnly), ("rw", readWrite), ("rwc", create), ("memory", memory)].findSome?
    fun (s, access) => if bytesOf s == name then some access else none

/-- How much an access permits. -/
def rank : Access → Nat
  | readOnly => 1
  | readWrite => 2
  | create => 3
  | memory => 4

/-- The access that an option asks for, unless it permits more than the one before. Memory is always
permitted. -/
def narrow? (now : Access) (asked : Access) : Option Access :=
  if asked = memory || asked.rank ≤ now.rank then some asked else none

end Access

/-- The file system with a given name. -/
def FileSystem.ofName? (name : List Nat) : Option FileSystem :=
  [("unix", regular), ("unix-excl", regular), ("unix-none", unshared), ("unix-dotfile", unshared),
    ("memdb", volatile)].findSome? fun (s, system) => if bytesOf s == name then some system else none

namespace StoreLocation

/-- The byte that a percent sign and two hexadecimal digits stand for. -/
def escapedByte? : List Nat → Option (Nat × List Nat)
  | 37 :: a :: b :: rest => do
    let high ← Json.hexValue? (Char.ofNat a)
    let low ← Json.hexValue? (Char.ofNat b)
    some (16 * high + low, rest)
  | _ => none

/-- The bytes of a part of a location without escapes. An escaped zero ends the part. -/
def unescape : Nat → List Nat → List Nat
  | 0, _ => []
  | _ + 1, [] => []
  | n + 1, b :: rest =>
    match escapedByte? (b :: rest) with
    | some (0, _) => []
    | some (byte, rest) => byte :: unescape n rest
    | none => b :: unescape n rest

/-- A part of a location without escapes. -/
def plain (part : List Nat) : List Nat :=
  unescape part.length part

/-- The bytes in front of a separator, and those behind it if it occurs. -/
def cutAt (separator : Char) (bytes : List Nat) : List Nat × Option (List Nat) :=
  match bytes.dropWhile (· != separator.toNat) with
  | [] => (bytes, none)
  | _ :: rest => (bytes.takeWhile (· != separator.toNat), some rest)

/-- The options in a text, the first argument bounding their number. Without a name an option does not
count. -/
def optionsIn : Nat → List Nat → List (List Nat × List Nat)
  | 0, _ => []
  | n + 1, bytes =>
    let (option, rest) := cutAt '&' bytes
    let (name, value) := cutAt '=' option
    let more := (rest.map (optionsIn n)).getD []
    if (plain name).isEmpty then more else (plain name, plain (value.getD [])) :: more

/-- The host that a path may name behind two slashes is this one. -/
def withoutHost? (bytes : List Nat) : Option (List Nat) :=
  if bytes.take 2 == [slash, slash] then
    let host := (bytes.drop 2).takeWhile (· != slash)
    if host.isEmpty || host == bytesOf "localhost" then some (bytes.drop (2 + host.length)) else none
  else some bytes

/-- The access after an option has been taken into account; an error if it has no such value. -/
def accessAfter? (access : Access) : List Nat × List Nat → Option Access
  | (name, value) =>
    if name == bytesOf "cache" then
      if value == bytesOf "shared" || value == bytesOf "private" then some access else none
    else if name == bytesOf "mode" then (Access.ofName? value).bind access.narrow?
    else some access

/-- The file system that the last of the options for it names. -/
def fileSystemIn? (options : List (List Nat × List Nat)) : Option FileSystem :=
  match options.reverse.find? (·.1 == bytesOf "vfs") with
  | some (_, name) => FileSystem.ofName? name
  | none => some .regular

/-- Whether a value means yes: one of three words in any letter case, or a number other than zero. -/
def isYes (value : List Nat) : Bool :=
  let cs := value.map fun b => (Char.ofNat b).toLower
  let digits := cs.takeWhile Char.isDigit
  if digits.isEmpty then ["on", "yes", "true"].any (·.toList == cs)
  else
    let n := natOfDigits digits
    n < twoTo 31 && n % 256 != 0

/-- The option with a name is given and means yes. -/
def isSet (l : StoreLocation) (name : String) : Bool :=
  (l.options.find? (·.1 == bytesOf name)).any fun (_, value) => isYes value

/-- The file never changes while the store is open. -/
def isImmutable (l : StoreLocation) : Bool := l.isSet "immutable"

/-- Processes can share a log beside the file. -/
def canShare (l : StoreLocation) : Bool :=
  l.fileSystem == .regular && !l.isSet "nolock" && !l.isImmutable

/-- The location names no file. -/
def isUnnamed (l : StoreLocation) : Bool :=
  l.path.isEmpty || l.path == bytesOf ":memory:" || l.access == .memory

/-- The store does not outlast the run. -/
def isTransient (l : StoreLocation) : Bool :=
  l.isUnnamed || l.fileSystem == .volatile

/-- The store cannot be changed. -/
def isReadOnly (l : StoreLocation) : Bool :=
  l.access == .readOnly || (l.isImmutable && !l.isUnnamed)

/-- Reads a location. -/
def ofText? (s : String) : Option StoreLocation :=
  let bytes := bytesOf s
  if bytes.contains 0 then none
  else match afterStart (bytesOf "file:") bytes with
    | none => some { path := bytes }
    | some rest => do
      let (path, options) := cutAt '?' (cutAt '#' (← withoutHost? rest)).1
      let options := (options.map fun bytes => optionsIn (bytes.length + 1) bytes).getD []
      let access ← options.foldlM accessAfter? .create
      let system ← fileSystemIn? options
      some ⟨plain path, access, system, options⟩

end StoreLocation

end TaskSeries.CommandLine
