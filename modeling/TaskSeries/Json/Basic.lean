import TaskSeries.Text.Power

/-!
JSON values, access to their parts, and the merge by which one value overrides parts of another.
-/

namespace TaskSeries

/-- A JSON value. Whole numbers that fit into 64 bits are told apart from all others, which are kept as
they are written. The members of an object are in the order of their first appearance. -/
inductive Json
  | null
  | bool (b : Bool)
  | int (n : Int)
  | real (text : String)
  | str (s : String)
  | arr (items : List Json)
  | obj (members : List (String × Json))
deriving BEq, Repr, Inhabited

namespace Json

open TaskSeries.Text

/-- The value of a member. -/
def lookup (key : String) : List (String × Json) → Option Json
  | [] => none
  | (k, v) :: rest => if k = key then some v else lookup key rest

/-- The value of a member that is there exactly once. -/
def lookupOnce (key : String) (members : List (String × Json)) : Option Json :=
  match members.filter (·.1 == key) with
  | [(_, v)] => some v
  | _ => none

/-- Gives a member a value, in its place if there is one and at the end otherwise. -/
def put (key : String) (value : Json) : List (String × Json) → List (String × Json)
  | [] => [(key, value)]
  | (k, v) :: rest => if k = key then (k, value) :: rest else (k, v) :: put key value rest

/-- The object with the given members, the last of several with one key winning. -/
def ofMembers (members : List (String × Json)) : Json :=
  obj (members.foldl (fun ms (k, v) => put k v ms) [])

/-- A member of an object. -/
def get? (key : String) : Json → Option Json
  | obj members => lookup key members
  | _ => none

/-- The text of a string. -/
def str? : Json → Option String
  | str s => some s
  | _ => none

/-- The truth value of a boolean. -/
def bool? : Json → Option Bool
  | bool b => some b
  | _ => none

/-- The number, if it is a whole one and fits into 64 bits with a sign. -/
def int64? : Json → Option Int
  | int n => if FitsInt 64 n then some n else none
  | _ => none

/-- The number, if it is a whole one and fits into 32 bits without a sign. -/
def nat32? : Json → Option Nat
  | int n => if FitsNat 32 n then some n.toNat else none
  | _ => none

/-- The items of an array. -/
def arr? : Json → Option (List Json)
  | arr items => some items
  | _ => none

/-- The texts of an array of strings. -/
def strs? (j : Json) : Option (List String) :=
  j.arr?.bind fun items => items.mapM str?

/-- The name of a case without content: a string, or an object with null under the name. -/
def caseName? : Json → Option String
  | str s => some s
  | obj [(name, null)] => some name
  | _ => none

/-- The members of a record with the given field names: an object, or an array with the fields in
order. -/
def record? (names : List String) : Json → Option (List (String × Json))
  | obj members => some members
  | arr items => if items.length ≤ names.length then some (names.zip items) else none
  | _ => none

/-- Reads null as nothing and every other value as `read` does. -/
def optional? {α : Type} (read : Json → Option α) : Option Json → Option (Option α)
  | none => some none
  | some null => some none
  | some j => (read j).map some

/-- A text, or null for none. -/
def ofText? : Option String → Json
  | some s => str s
  | none => null

mutual

/-- The first value with the parts that the second one specifies replaced: objects are merged member by
member, null specifies nothing, and every other value replaces what it meets. -/
def merge (base overlay : Json) : Json :=
  match overlay with
  | obj overrides =>
    match base with
    | obj members => obj (mergeMembers members overrides)
    | _ => obj overrides
  | null => base
  | other => other

/-- The members of an object after those of an overriding one. A member that only the second has is
taken over as it is. -/
def mergeMembers (members : List (String × Json)) : List (String × Json) → List (String × Json)
  | [] => members
  | (k, v) :: rest =>
    let merged := match lookup k members with
      | some old => merge old v
      | none => v
    mergeMembers (put k merged members) rest

end

/-- Merges values in order, each overriding those before it. -/
def mergeAll (values : List Json) : Json :=
  values.foldl merge null

end Json

end TaskSeries
