import TaskSeries.Yaml.Value

/-!
Reading a YAML text with at most one document. A text without a document stands for null.
-/

namespace TaskSeries.Yaml

/-- A text with the usual line ends written as line feeds. -/
def normalizeBreaks : List Char → List Char
  | [] => []
  | '\r' :: '\n' :: cs => '\n' :: normalizeBreaks cs
  | '\r' :: cs => '\n' :: normalizeBreaks cs
  | c :: cs => (if c.toNat == 0x85 then '\n' else c) :: normalizeBreaks cs

/-- The characters that a YAML text may hold. -/
def isAllowed (c : Char) : Bool :=
  let n := c.toNat
  n == 9 || n == 10 || n == 13 || n == 0x85 || (0x20 ≤ n && n ≤ 0x7E)
    || (0xA0 ≤ n && n ≤ 0xD7FF) || (0xE000 ≤ n && n ≤ 0xFFFD) || 0x10000 ≤ n

/-- What the directives in front of a document say. -/
structure Prologue where
  /-- The version of the language is given. -/
  versioned : Bool := false
  /-- The handles that directives explain. -/
  handles : Handles := []
deriving DecidableEq, Repr

/-- Takes a directive into account. The version is 1.1 or 1.2 and given once, and so is each handle. -/
def Prologue.add (p : Prologue) : Directive → Option Prologue
  | .version major minor =>
    if p.versioned || major != 1 || (minor != 1 && minor != 2) then none
    else some { p with versioned := true }
  | .handle name start =>
    if p.handles.any (·.1 == name) then none
    else some { p with handles := p.handles ++ [(name, start)] }

/-- The directives in front of a document. -/
def prologue? (p : Prologue) : List Token → Option (Prologue × List Token)
  | .directive d :: rest => (p.add d).bind (prologue? · rest)
  | tokens => some (p, tokens)

/-- Behind the mark of its beginning a document is empty in front of these tokens. -/
def isEmptyDocument : List Token → Bool
  | [] => true
  | .directive _ :: _ => true
  | .documentStart :: _ => true
  | .documentEnd :: _ => true
  | _ => false

/-- More than the number of parts of a document. -/
def partBound (tokens : List Token) : Nat := 4 * tokens.length + 4

/-- The document that starts with directives or the mark of its beginning. -/
def markedDocument? (tokens : List Token) : Option (Node AnchorName × List Token) := do
  let (p, tokens) ← prologue? {} tokens
  match tokens with
  | .documentStart :: rest =>
    if isEmptyDocument rest then some (Node.empty, rest)
    else node? (p.handles ++ standardHandles) true false (partBound rest) rest
  | _ => none

/-- The only document of tokens, if there is one. -/
def document? (tokens : List Token) : Option (Option (Node AnchorName)) :=
  if tokens.isEmpty then some none
  else do
    let isMarked := match tokens with
      | .directive _ :: _ | .documentStart :: _ => true
      | _ => false
    let (node, rest) ←
      if isMarked then markedDocument? tokens
      else node? standardHandles true false (partBound tokens) tokens
    if rest.all (· == .documentEnd) then some (some node) else none

/-- Reads a YAML text. -/
def parse? (s : String) : Option Json :=
  if s.toList.all isAllowed then do
    let tokens ← tokens? (normalizeBreaks s.toList)
    match ← document? tokens with
    | none => some .null
    | some node => node.value?
  else none

end TaskSeries.Yaml
