/-!
The settings that govern when occurrences are generated and when they expire.
-/

namespace TaskSeries

/-- What happens to tasks whose expiry has passed. -/
inductive ExpiryPolicy
  /-- No more occurrences are generated; tasks that exist stay. -/
  | gate
  /-- Pending tasks are deleted too. -/
  | expire
deriving DecidableEq, Repr

namespace ExpiryPolicy

/-- The name of a policy. -/
def name : ExpiryPolicy → String
  | gate => "gate"
  | expire => "expire"

/-- The policy with a given name. -/
def ofName? (s : String) : Option ExpiryPolicy :=
  match s with
  | "gate" => some gate
  | "expire" => some expire
  | _ => none

/-- The policy with a given name, in any letter case of A to Z. -/
def ofText? (s : String) : Option ExpiryPolicy :=
  ofName? (String.ofList (s.toList.map Char.toLower))

end ExpiryPolicy

/-- The settings of recurrence. -/
structure RecurrenceSettings where
  /-- Whether occurrences are generated at all. -/
  enabled : Bool := true
  /-- How many pending occurrences each series keeps ahead of the current instant. -/
  limit : Nat := 1
  policy : ExpiryPolicy := .gate
deriving DecidableEq, Repr

namespace RecurrenceSettings

/-- The number of pending occurrences to keep ahead, at least one. -/
def horizon (s : RecurrenceSettings) : Nat :=
  max s.limit 1

end RecurrenceSettings

end TaskSeries
