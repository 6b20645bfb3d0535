import TaskSeries.Yaml.Node

/-!
Anchors of a document. Names are replaced by numbers: an anchor takes the number of different names in
front of it, and a reference has the number that its name took last. What a reference stands for is the
last node of the document with its number.
-/

namespace TaskSeries.Yaml

/-- The names in front of a place with their numbers, the last one first. -/
abbrev Names := List (AnchorName × Nat)

/-- Gives a name the next number. -/
def Names.add (names : Names) (name : AnchorName) : Nat × Names :=
  (names.length, (name, names.length) :: names.filter (·.1 != name))

/-- The number of a name. -/
def Names.number? (names : Names) (name : AnchorName) : Option Nat :=
  (names.find? (·.1 == name)).map (·.2)

/-- Gives the anchor among properties its number. -/
def Names.addFrom (names : Names) (p : Properties AnchorName) : Properties Nat × Names :=
  match p.anchor with
  | none => (⟨none, p.tag⟩, names)
  | some name =>
    let (n, names) := names.add name
    (⟨some n, p.tag⟩, names)

namespace Node

mutual

/-- A node with numbers for names. A reference to a name that is not in front of it has no number. -/
def numbered? (names : Names) : Node AnchorName → Option (Node Nat × Names)
  | reference name => (names.number? name).map fun n => (reference n, names)
  | scalar p text plain =>
    let (p, names) := names.addFrom p
    some (scalar p text plain, names)
  | list p items => do
    let (p, names) := names.addFrom p
    let (items, names) ← numberedItems? names items
    some (list p items, names)
  | map p members => do
    let (p, names) := names.addFrom p
    let (members, names) ← numberedMembers? names members
    some (map p members, names)

/-- The items of a list with numbers for names. -/
def numberedItems? (names : Names) : List (Node AnchorName) → Option (List (Node Nat) × Names)
  | [] => some ([], names)
  | node :: rest => do
    let (node, names) ← numbered? names node
    let (rest, names) ← numberedItems? names rest
    some (node :: rest, names)

/-- The members of a map with numbers for names. -/
def numberedMembers? (names : Names) :
    List (Node AnchorName × Node AnchorName) → Option (List (Node Nat × Node Nat) × Names)
  | [] => some ([], names)
  | (key, value) :: rest => do
    let (key, names) ← numbered? names key
    let (value, names) ← numbered? names value
    let (rest, names) ← numberedMembers? names rest
    some ((key, value) :: rest, names)

end

/-- A node with its number, if it has an anchor. -/
def anchoredHere (node : Node Nat) : List (Nat × Node Nat) :=
  (node.properties.anchor.map (·, node)).toList

mutual

/-- The nodes with an anchor, in the order in which they begin. -/
def anchored : Node Nat → List (Nat × Node Nat)
  | reference n => anchoredHere (reference n)
  | scalar p text plain => anchoredHere (scalar p text plain)
  | list p items => anchoredHere (list p items) ++ anchoredItems items
  | map p members => anchoredHere (map p members) ++ anchoredMembers members

/-- The nodes with an anchor in the items of a list. -/
def anchoredItems : List (Node Nat) → List (Nat × Node Nat)
  | [] => []
  | node :: rest => anchored node ++ anchoredItems rest

/-- The nodes with an anchor in the members of a map. -/
def anchoredMembers : List (Node Nat × Node Nat) → List (Nat × Node Nat)
  | [] => []
  | (key, value) :: rest => anchored key ++ anchored value ++ anchoredMembers rest

end

end Node

end TaskSeries.Yaml
