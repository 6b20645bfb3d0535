import TaskSeries.Store.Basic

/-!
A tree of directories held in memory: what is at each path, and how paths lead from one directory to
another. Paths lead from the directory that a run is in, or from the root of all directories.
-/

namespace TaskSeries.CommandLine

/-- A name in a directory, by its bytes. -/
abbrev Name := List Nat

/-- The bytes of a text. -/
def bytesOf (s : String) : List Nat :=
  s.toUTF8.data.toList.map UInt8.toNat

/-- The byte between the names of a path. -/
def slash : Nat := 47

/-- The parts of a path between slashes. -/
def partsOf : List Nat → List Name
  | [] => [[]]
  | b :: rest =>
    if b = slash then [] :: partsOf rest
    else match partsOf rest with
      | name :: names => (b :: name) :: names
      | [] => [[b]]

/-- The path starts at the root of all directories. -/
def isAbsolute (path : List Nat) : Bool :=
  path.head? == some slash

/-- A part that leads nowhere else: it is empty or a dot. -/
def staysPut (part : Name) : Bool :=
  part.isEmpty || part == bytesOf "."

/-- The part that leads to the directory around. -/
def leadsUp (part : Name) : Bool :=
  part == bytesOf ".."

/-- The root of all directories, which has an empty name. -/
def root : List Name := [[]]

/-- The place that a path starts at. -/
def startOf (path : List Nat) : List Name :=
  if isAbsolute path then root else []

/-- The place around a place. Around the directory of the run are places that only parts that lead up
name; nothing is around the root. -/
def around (place : List Name) : List Name :=
  if place == root then root
  else if place.all leadsUp then place ++ [bytesOf ".."]
  else place.dropLast

/-- The parts of a path that lead to the directory that its last part is in. -/
def parentParts (path : List Nat) : List Name :=
  ((partsOf path).filter (!staysPut ·)).dropLast

/-- The most bytes of a name. -/
def longestName : Nat := 255

/-- The most bytes of a path. -/
def longestPath : Nat := 4095

/-- How the changes of a store are guarded. -/
inductive Journal
  /-- What is overwritten is kept until the change is complete. -/
  | rollback
  /-- Changes are written to a log first, which processes share. -/
  | ahead
deriving DecidableEq, Repr

/-- What a name in a directory stands for. -/
inductive Entry
  | text (content : String)
  | store (content : Store) (journal : Journal)
  | directory
  /-- A file that stays empty, whatever is written to it. -/
  | nothing
deriving DecidableEq

/-- The names of the directories at the root. -/
def systemDirectories : List Name :=
  ["dev", "etc", "home", "proc", "root", "run", "srv", "sys", "tmp", "usr", "var"].map bytesOf

/-- What is at a path on every system. -/
def standing? : List Name → Option Entry
  | [] => some .directory
  | [[]] => some .directory
  | [[], name] => if systemDirectories.contains name then some .directory else none
  | path =>
    if path == [[], bytesOf "dev", bytesOf "null"] then some .nothing
    else if path.all leadsUp then some .directory
    else none

/-- A directory: what is at each path in it, a path being the names on the way. -/
structure Directory where
  entries : List (List Name × Entry) := []

/-- Why a path cannot be used. -/
inductive PathFault
  | missing | isDirectory | notDirectory | tooLong
deriving DecidableEq, Repr

/-- The fault in words. -/
def PathFault.message : PathFault → String
  | missing => "No such file or directory (os error 2)"
  | isDirectory => "Is a directory (os error 21)"
  | notDirectory => "Not a directory (os error 20)"
  | tooLong => "File name too long (os error 36)"

namespace Directory

/-- What is at a path. -/
def entry? (d : Directory) (path : List Name) : Option Entry :=
  (standing? path).or ((d.entries.find? (·.1 == path)).map (·.2))

/-- Puts something at a path. -/
def put (d : Directory) (path : List Name) (e : Entry) : Directory :=
  ⟨(path, e) :: d.entries.filter (·.1 != path)⟩

/-- Whether a path is a directory, and if not, why. -/
def directory? (d : Directory) (path : List Name) : Except PathFault Unit :=
  match d.entry? path with
  | some .directory => .ok ()
  | some _ => .error .notDirectory
  | none => .error .missing

/-- Follows the parts of a path from a place on. There must be a directory in front of each part. -/
def walk (d : Directory) : List Name → List Name → Except PathFault (List Name)
  | place, [] => .ok place
  | place, part :: rest => do
    d.directory? place
    if staysPut part then walk d place rest
    else if leadsUp part then walk d (around place) rest
    else if longestName < part.length then .error .tooLong
    else walk d (place ++ [part]) rest

/-- The place that a path leads to. -/
def place (d : Directory) (path : List Nat) : Except PathFault (List Name) :=
  if path.isEmpty then .error .missing
  else if longestPath < path.length then .error .tooLong
  else d.walk (startOf path) (partsOf path)

/-- The text of a file. -/
def read (d : Directory) (path : String) : Option String :=
  match d.place (bytesOf path) with
  | .error _ => none
  | .ok place =>
    match d.entry? place with
    | some (.text content) => some content
    | some .nothing => some ""
    | _ => none

/-- Creates the directories at the parts of a path from a place on, as far as they are missing. Gives what
is there in the end, and whether all parts are directories. -/
def makeDirectories (d : Directory) : List Name → List Name → Bool × Directory
  | _, [] => (true, d)
  | place, part :: rest =>
    if staysPut part then makeDirectories d place rest
    else if leadsUp part then makeDirectories d (around place) rest
    else if longestName < part.length then (false, d)
    else
      let here := place ++ [part]
      match d.entry? here with
      | none => makeDirectories (d.put here .directory) here rest
      | some .directory => makeDirectories d here rest
      | some _ => (false, d)

/-- The directory with a file added, and the directories it is in. -/
def addFile (d : Directory) (path content : String) : Directory :=
  let (_, d) := d.makeDirectories (startOf (bytesOf path)) (parentParts (bytesOf path))
  match d.place (bytesOf path) with
  | .error _ => d
  | .ok place => d.put place (.text content)

/-- Opens a file for writing, creating it if it is missing. A slash behind a name asks for a directory,
which no file is. -/
def create (d : Directory) (path : String) : Except PathFault Directory :=
  let bytes := bytesOf path
  if bytes.getLast? == some slash then do
    let parts := ((partsOf bytes).reverse.dropWhile List.isEmpty).tail.reverse
    let place ← d.walk (startOf bytes) parts
    d.directory? place
    .error .isDirectory
  else do
    let place ← d.place bytes
    match d.entry? place with
    | some .directory => .error .isDirectory
    | some _ => .ok d
    | none => .ok (d.put place (.text ""))

/-- The store at a path, if there is one. -/
def storeAt? (d : Directory) (path : String) : Option Store :=
  match d.place (bytesOf path) with
  | .error _ => none
  | .ok place =>
    match d.entry? place with
    | some (.store s _) => some s
    | _ => none

end Directory

end TaskSeries.CommandLine
