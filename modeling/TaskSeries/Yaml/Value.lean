import TaskSeries.Yaml.Anchor
import TaskSeries.Yaml.Scalar

/-!
The value that a document describes. References are followed, which is limited in number and depth so
that no short document describes a huge value.
-/

namespace TaskSeries.Yaml

/-- The value of a scalar. Quotes and most tags make it a text; it has no value if it does not read as its
tag says, or if its tag is none of the language. -/
def scalarValue? (tag : Option (List Char)) (text : List Char) (plain : Bool) : Option Json :=
  let s := String.ofList text
  match tag with
  | none => if plain then scalar s else some (.str s)
  | some ('!' :: _) => none
  | some tag =>
    if tag == "tag:yaml.org,2002:bool".toList then (boolean? s).map .bool
    else if tag == "tag:yaml.org,2002:int".toList then (whole text).bind integer?
    else if tag == "tag:yaml.org,2002:float".toList then fraction? s
    else if tag == "tag:yaml.org,2002:null".toList then if isNullWord s then some .null else none
    else some (.str s)

/-- Whether a list or a map may have a tag. -/
def isListTag (tag : Option (List Char)) : Bool :=
  tag.all fun tag => tag.head? != some '!'

/-- What is needed to follow references. -/
structure References where
  /-- The nodes with an anchor, the last one first. -/
  targets : List (Nat × Node Nat)

namespace References

/-- The node that a reference stands for. -/
def target? (r : References) (n : Nat) : Option (Node Nat) :=
  (r.targets.find? (·.1 == n)).map (·.2)

/-- The node that a node stands for, and how many references may still be followed. -/
def follow? (r : References) (left : Nat) : Node Nat → Option (Node Nat × Nat)
  | .reference n =>
    match left with
    | 0 => none
    | left + 1 => (r.target? n).map (·, left)
  | node => some (node, left)

/-- The text of a key, which is a scalar. -/
def key? (r : References) (left : Nat) (node : Node Nat) : Option (String × Nat) :=
  match r.follow? left node with
  | some (.scalar _ text _, left) => some (String.ofList text, left)
  | _ => none

/-- The values of the items of a list, each read by `value`. -/
def itemsWith (value : Nat → Node Nat → Option (Json × Nat)) (left : Nat) :
    List (Node Nat) → Option (List Json × Nat)
  | [] => some ([], left)
  | node :: rest => do
    let (v, left) ← value left node
    let (vs, left) ← itemsWith value left rest
    some (v :: vs, left)

/-- The members of a map, each value read by `value`. -/
def membersWith (r : References) (value : Nat → Node Nat → Option (Json × Nat)) (left : Nat) :
    List (Node Nat × Node Nat) → Option (List (String × Json) × Nat)
  | [] => some ([], left)
  | (key, node) :: rest => do
    let (key, left) ← r.key? left key
    let (v, left) ← value left node
    let (members, left) ← membersWith r value left rest
    some ((key, v) :: members, left)

/-- The value of a node whose lists and maps nest `depth` deep at most; `left` is how many references may
be followed. -/
def value? (r : References) : Nat → Nat → Node Nat → Option (Json × Nat)
  | depth, left, node =>
    match r.follow? left node with
    | none => none
    | some (.reference _, _) => none
    | some (.scalar p text plain, left) => (scalarValue? p.tag text plain).map (·, left)
    | some (.list p items, left) =>
      match depth with
      | 0 => none
      | depth + 1 =>
        if isListTag p.tag then
          (itemsWith (r.value? depth) left items).map fun (vs, left) => (.arr vs, left)
        else none
    | some (.map p members, left) =>
      match depth with
      | 0 => none
      | depth + 1 =>
        if isListTag p.tag then
          (membersWith r (r.value? depth) left members).map fun (ms, left) => (.ofMembers ms, left)
        else none

end References

/-- How deep lists and maps may nest. -/
def deepest : Nat := 128

/-- The value of a document. A hundred references may be followed for each of its nodes. -/
def Node.value? (node : Node AnchorName) : Option Json := do
  let (node, _) ← node.numbered? []
  let r : References := ⟨node.anchored.reverse⟩
  (r.value? deepest (100 * node.weight) node).map (·.1)

end TaskSeries.Yaml
