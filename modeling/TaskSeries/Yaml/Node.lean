import TaskSeries.Yaml.Token

/-!
The nodes of a YAML document, as the tokens give them: scalars, lists and maps with their properties,
and references to nodes with an anchor.
-/

namespace TaskSeries.Yaml

/-- What stands in front of a node: its anchor, and its tag in full. -/
structure Properties (α : Type) where
  anchor : Option α := none
  tag : Option (List Char) := none
deriving DecidableEq, Repr

/-- A node. Anchors are of the type `α`. -/
inductive Node (α : Type)
  | reference (anchor : α)
  | scalar (properties : Properties α) (text : List Char) (plain : Bool)
  | list (properties : Properties α) (items : List (Node α))
  | map (properties : Properties α) (members : List (Node α × Node α))

namespace Node

/-- The node that is left out. -/
def empty {α : Type} : Node α := scalar {} [] true

/-- The properties of a node. -/
def properties {α : Type} : Node α → Properties α
  | reference _ => {}
  | scalar p _ _ => p
  | list p _ => p
  | map p _ => p

mutual

/-- The number of scalars and references in a node, a list or a map counting twice. -/
def weight {α : Type} : Node α → Nat
  | reference _ => 1
  | scalar .. => 1
  | list _ items => 2 + itemsWeight items
  | map _ members => 2 + membersWeight members

/-- The number for the items of a list. -/
def itemsWeight {α : Type} : List (Node α) → Nat
  | [] => 0
  | node :: rest => weight node + itemsWeight rest

/-- The number for the members of a map. -/
def membersWeight {α : Type} : List (Node α × Node α) → Nat
  | [] => 0
  | (key, value) :: rest => weight key + weight value + membersWeight rest

end

end Node

/-- A name of an anchor. -/
abbrev AnchorName := List Char

/-- The handles of tags that are known in a document. -/
abbrev Handles := List (List Char × List Char)

/-- Reads the properties of a node: an anchor and a tag in either order, each at most once. -/
def properties? (handles : Handles) :
    List Token → Option (Properties AnchorName × List Token)
  | .anchor a :: .tag t :: rest =>
    (t.resolve? handles).map fun tag => (⟨some a, some tag⟩, rest)
  | .tag t :: .anchor a :: rest =>
    (t.resolve? handles).map fun tag => (⟨some a, some tag⟩, rest)
  | .anchor a :: rest => some (⟨some a, none⟩, rest)
  | .tag t :: rest => (t.resolve? handles).map fun tag => (⟨none, some tag⟩, rest)
  | tokens => some ({}, tokens)

/-- A key or a value in block style is left out in front of these tokens. -/
def isLeftOut : List Token → Bool
  | .key :: _ => true
  | .value :: _ => true
  | .blockEnd :: _ => true
  | _ => false

/-- A value inside brackets is left out in front of these tokens. -/
def isLeftOutInFlow (close : Token) : List Token → Bool
  | .comma :: _ => true
  | t :: _ => t == close
  | [] => false

mutual

/-- Reads a node. Blocks may start here if `block` is true, and a list whose dashes are at the column of
the key in front if `beside` is. The first argument bounds the number of parts. -/
def node? (handles : Handles) (block beside : Bool) :
    Nat → List Token → Option (Node AnchorName × List Token)
  | 0, _ => none
  | _ + 1, .reference name :: rest => some (.reference name, rest)
  | n + 1, tokens => do
    let (p, tokens) ← properties? handles tokens
    match tokens with
    | .scalar text plain :: rest => some (.scalar p text plain, rest)
    | .flowListStart :: rest =>
      (flowItems? handles true n rest).map fun (items, rest) => (.list p items, rest)
    | .flowMapStart :: rest =>
      (flowMembers? handles true n rest).map fun (members, rest) => (.map p members, rest)
    | tokens =>
      match block, beside, tokens with
      | _, true, .item :: _ =>
        (itemsBeside? handles n tokens).map fun (items, rest) => (.list p items, rest)
      | true, _, .blockListStart :: rest =>
        (blockItems? handles n rest).map fun (items, rest) => (.list p items, rest)
      | true, _, .blockMapStart :: rest =>
        (blockMembers? handles n rest).map fun (members, rest) => (.map p members, rest)
      | _, _, _ =>
        if p.anchor.isSome || p.tag.isSome then some (.scalar p [] true, tokens) else none

/-- Reads the items of a list in block style up to the end of the block. -/
def blockItems? (handles : Handles) :
    Nat → List Token → Option (List (Node AnchorName) × List Token)
  | 0, _ => none
  | n + 1, .item :: rest => do
    let (item, rest) ← match rest with
      | .item :: _ | .blockEnd :: _ => some (Node.empty, rest)
      | _ => node? handles true false n rest
    let (items, rest) ← blockItems? handles n rest
    some (item :: items, rest)
  | _ + 1, .blockEnd :: rest => some ([], rest)
  | _ + 1, _ => none

/-- Reads the items of a list whose dashes are at the column of the key in front. -/
def itemsBeside? (handles : Handles) :
    Nat → List Token → Option (List (Node AnchorName) × List Token)
  | 0, _ => none
  | n + 1, .item :: rest => do
    let isEmpty := isLeftOut rest || rest.head? == some .item
    let (item, rest) ← if isEmpty then some (Node.empty, rest) else node? handles true false n rest
    let (items, rest) ← itemsBeside? handles n rest
    some (item :: items, rest)
  | _ + 1, tokens => some ([], tokens)

/-- Reads the members of a map in block style up to the end of the block. -/
def blockMembers? (handles : Handles) :
    Nat → List Token → Option (List (Node AnchorName × Node AnchorName) × List Token)
  | 0, _ => none
  | n + 1, .key :: rest => do
    let (key, rest) ←
      if isLeftOut rest then some (Node.empty, rest) else node? handles true true n rest
    let (value, rest) ← match rest with
      | .value :: rest =>
        if isLeftOut rest then some (Node.empty, rest) else node? handles true true n rest
      | _ => some (Node.empty, rest)
    let (members, rest) ← blockMembers? handles n rest
    some ((key, value) :: members, rest)
  | _ + 1, .blockEnd :: rest => some ([], rest)
  | _ + 1, _ => none

/-- Reads the items of a list in brackets up to the closing one. A key among them stands for a map of
one member. -/
def flowItems? (handles : Handles) (first : Bool) :
    Nat → List Token → Option (List (Node AnchorName) × List Token)
  | 0, _ => none
  | _ + 1, .flowListEnd :: rest => some ([], rest)
  | n + 1, tokens => do
    let tokens ← match first, tokens with
      | true, tokens => some tokens
      | false, .comma :: rest => some rest
      | false, _ => none
    match tokens with
    | .flowListEnd :: rest => some ([], rest)
    | .key :: rest =>
      -- the sign in place of a key that is left out does not count any more
      let (key, rest) ←
        if rest.head? == some .value || isLeftOutInFlow .flowListEnd rest then
          some (Node.empty, rest.tail)
        else node? handles false false n rest
      let (value, rest) ← flowValue? handles .flowListEnd n rest
      let (items, rest) ← flowItems? handles false n rest
      some (.map {} [(key, value)] :: items, rest)
    | tokens =>
      let (item, rest) ← node? handles false false n tokens
      let (items, rest) ← flowItems? handles false n rest
      some (item :: items, rest)

/-- Reads the value behind a key inside brackets; without a colon, or with nothing behind it, the value
is left out. -/
def flowValue? (handles : Handles) (close : Token) :
    Nat → List Token → Option (Node AnchorName × List Token)
  | 0, _ => none
  | n + 1, .value :: rest =>
    if isLeftOutInFlow close rest then some (Node.empty, rest)
    else node? handles false false n rest
  | _ + 1, tokens => some (Node.empty, tokens)

/-- Reads the members of a map in braces up to the closing one. -/
def flowMembers? (handles : Handles) (first : Bool) :
    Nat → List Token → Option (List (Node AnchorName × Node AnchorName) × List Token)
  | 0, _ => none
  | _ + 1, .flowMapEnd :: rest => some ([], rest)
  | n + 1, tokens => do
    let tokens ← match first, tokens with
      | true, tokens => some tokens
      | false, .comma :: rest => some rest
      | false, _ => none
    match tokens with
    | .flowMapEnd :: rest => some ([], rest)
    | .key :: rest =>
      let (key, rest) ←
        if rest.head? == some .value || isLeftOutInFlow .flowMapEnd rest then
          some (Node.empty, rest)
        else node? handles false false n rest
      let (value, rest) ← flowValue? handles .flowMapEnd n rest
      let (members, rest) ← flowMembers? handles false n rest
      some ((key, value) :: members, rest)
    | tokens =>
      let (key, rest) ← node? handles false false n tokens
      let (members, rest) ← flowMembers? handles false n rest
      some ((key, Node.empty) :: members, rest)

end

end TaskSeries.Yaml
