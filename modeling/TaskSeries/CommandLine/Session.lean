import TaskSeries.CommandLine.Run
import TaskSeries.CommandLine.StoreLocation

/-!
Runs of the program in one directory, one after another: what they find there and what they leave behind.
-/

namespace TaskSeries.CommandLine

open TaskSeries.Calendar

/-- A store that has been opened. -/
structure OpenStore where
  content : Store
  /-- Where the store is kept, and how its changes are guarded there. -/
  place : Option (List Name × Journal)

namespace Directory

/-! ## Opening stores -/

/-- The name of a file that guards changes, which stands beside the store, has so many bytes more. -/
def journalSuffix : Nat := 8

/-- The most bytes of a path to a store, which are less as seen from the directory of the run. -/
def longestStorePath (place : List Name) : Nat :=
  if place.head? == some [] then 505 else 489

/-- The bytes of a path. -/
def pathLength (place : List Name) : Nat :=
  place.length + place.flatten.length

/-- Follows the parts of a path to a store. Parts that lead up take back what is in front of them, whether
it is there or not; no other file may be on the way. -/
def reach (d : Directory) : List Name → List Name → Option (List Name)
  | place, [] => some place
  | place, part :: rest =>
    if staysPut part then reach d place rest
    else if leadsUp part then reach d (around place) rest
    else
      let here := place ++ [part]
      let isFree := (d.entry? place).all (· == .directory)
      if isFree && part.length ≤ longestName && pathLength here ≤ longestStorePath here then
        reach d here rest
      else none

/-- The place of a store in a directory that exists. -/
def storePlace? (d : Directory) (path : List Nat) : Option (List Name) := do
  let place ← d.reach (startOf path) (partsOf path)
  match d.entry? place.dropLast with
  | some .directory => some place
  | _ => none

/-- Makes a new store at a place, if the file that guards its changes can be made too. -/
def newStore (l : StoreLocation) (place : List Name) (d : Directory) :
    Except StoreFault OpenStore × Directory :=
  let name := place.getLast?.getD []
  if l.isReadOnly || longestName < name.length + journalSuffix then (.error .unavailable, d)
  else
    let journal := if l.canShare then .ahead else .rollback
    (.ok ⟨{}, some (place, journal)⟩, d.put place (.store {} journal))

/-- Opens the store at a place. A log that processes share is of use only where they can share it, and a
store that cannot be changed does not get one. -/
def knownStore (l : StoreLocation) (place : List Name) (s : Store) (journal : Journal) (d : Directory) :
    Except StoreFault OpenStore × Directory :=
  let opened (journal : Journal) : Except StoreFault OpenStore × Directory :=
    (.ok ⟨{ s with readOnly := l.isReadOnly }, some (place, journal)⟩, d)
  if l.isImmutable then opened journal
  else match l.canShare, journal with
    | true, .ahead => opened .ahead
    | true, .rollback => if l.isReadOnly then (.error .unavailable, d) else opened .ahead
    | false, .ahead => (.error .unavailable, d)
    | false, .rollback => opened .rollback

/-- Opens the store at a location. An empty file, or one of a single byte, becomes an empty store. -/
def openAt (d : Directory) (l : StoreLocation) : Except StoreFault OpenStore × Directory :=
  if l.isTransient then
    (if l.isReadOnly then .error .unavailable else .ok ⟨{}, none⟩, d)
  else match d.storePlace? l.path with
    | none => (.error .unavailable, d)
    | some place =>
      match d.entry? place with
      | some .directory => (.error .unavailable, d)
      | some .nothing => (.error .unavailable, d)
      | some (.store s journal) => d.knownStore l place s journal
      | some (.text content) =>
        if content.utf8ByteSize ≤ 1 then d.newStore l place else (.error .unavailable, d)
      | none =>
        if l.access = .create then (d.put place (.text "")).newStore l place
        else (.error .unavailable, d)

/-- Opens the store that a text locates, after the directories on the way have been created. -/
def openStore (d : Directory) (location : String) : Except StoreFault OpenStore × Directory :=
  let bytes := bytesOf location
  match d.makeDirectories (startOf bytes) (parentParts bytes) with
  | (false, d) => (.error .unavailable, d)
  | (true, d) =>
    match StoreLocation.ofText? location with
    | none => (.error .unavailable, d)
    | some l => d.openAt l

/-- What is left of a store behind a run. -/
def keep (d : Directory) (opened : OpenStore) (s : Store) : Directory :=
  match opened.place with
  | some (place, journal) => d.put place (.store { s with readOnly := false } journal)
  | none => d

/-! ## Runs -/

/-- Opens the log. -/
def openLog (d : Directory) : LogTarget → Except PathFault Directory
  | .file path => d.create path
  | _ => .ok d

/-- The surroundings of a run in the directory. -/
def surroundings (d : Directory) (env : String → Option String) (home : Option String)
    (clock : Instant) : Surroundings :=
  ⟨env, home, d.read, clock⟩

/-- Executes an invocation whose log has been opened. -/
def execute (d : Directory) (s : Surroundings) (draw : Nat → TaskId) (typed : Answer)
    (i : Invocation) : Output × Directory :=
  match i.prepare s with
  | .error f => (Output.failed f, d)
  | .ok (config, now) =>
    match d.openStore config.dbPath with
    | (.error f, d) => (Output.failed (.store f), d)
    | (.ok opened, d) =>
      let (output, store) := performOn draw i config now typed opened.content
      (output, d.keep opened store)

/-- A run with arguments that parse. -/
def run (d : Directory) (env : String → Option String) (home : Option String) (clock : Instant)
    (draw : Nat → TaskId) (typed : Answer) (i : Invocation) : Output × Directory :=
  match d.openLog (LogTarget.ofText i.log) with
  | .ok d => d.execute (d.surroundings env home clock) draw typed i
  | .error f =>
    let (output, d) := d.execute (d.surroundings env home clock) draw typed i
    ({ output with warning := logWarning f.message }, d)

end Directory

end TaskSeries.CommandLine
