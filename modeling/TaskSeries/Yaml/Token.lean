import TaskSeries.Yaml.Plain
import TaskSeries.Yaml.Literal
import TaskSeries.Yaml.Tag

/-!
The tokens of a YAML text. Structure that is shown by indentation has tokens of its own: blocks begin
and end, and a key has a mark in front.
-/

namespace TaskSeries.Yaml

/-- A token. -/
inductive Token
  | directive (d : Directive)
  | documentStart
  | documentEnd
  | blockListStart
  | blockMapStart
  | blockEnd
  | flowListStart
  | flowListEnd
  | flowMapStart
  | flowMapEnd
  /-- The dash in front of an item. -/
  | item
  | comma
  /-- A key follows. -/
  | key
  /-- The colon in front of a value. -/
  | value
  /-- The value of the node with an anchor. -/
  | reference (name : List Char)
  | anchor (name : List Char)
  | tag (t : TagText)
  | scalar (text : List Char) (plain : Bool)
deriving DecidableEq, Repr

/-- A place at which a key may have started: it is one if a colon follows on the same line. -/
structure KeyStart where
  place : Place
  /-- The number of tokens in front. -/
  index : Nat
  /-- A key is needed here. -/
  required : Bool
deriving DecidableEq, Repr

/-- The tokens in front of a place, and what is open there. -/
structure Tokens where
  place : Place
  /-- The tokens, the last one first. -/
  read : List Token := []
  /-- The columns of the blocks that are open, the innermost first. -/
  blocks : List Nat := []
  /-- Where a key may have started inside the innermost brackets. -/
  key : Option KeyStart := none
  /-- Where keys may have started outside of the innermost brackets, for each pair of brackets. -/
  outer : List (Option KeyStart) := []
  /-- A key may start here. -/
  keyAllowed : Bool := true
deriving DecidableEq, Repr

namespace Tokens

/-- The place is inside brackets. -/
def inFlow (t : Tokens) : Bool := !t.outer.isEmpty

/-- Adds a token. -/
def push (token : Token) (t : Tokens) : Tokens :=
  { t with read := token :: t.read }

/-- Adds a token behind the first `index` tokens. -/
def insertAt (index : Nat) (token : Token) (t : Tokens) : Tokens :=
  let later := t.read.length - index
  { t with read := t.read.take later ++ token :: t.read.drop later }

/-- Goes to another place. -/
def moveTo (place : Place) (t : Tokens) : Tokens :=
  { t with place := place }

/-- Sets whether a key may start here. -/
def allowKey (allowed : Bool) (t : Tokens) : Tokens :=
  { t with keyAllowed := allowed }

/-- Adds a token of a number of characters at the place. -/
def take (length : Nat) (token : Token) (t : Tokens) : Tokens :=
  (t.push token).moveTo (t.place.skip length)

/-! ## Blocks -/

/-- Ends the blocks whose columns satisfy a condition, from the innermost on. Inside brackets no block
ends. -/
def closeBlocks (isClosed : Nat → Bool) (t : Tokens) : Tokens :=
  if t.inFlow then t
  else
    let closed := t.blocks.takeWhile isClosed
    { t with
      read := List.replicate closed.length .blockEnd ++ t.read
      blocks := t.blocks.drop closed.length }

/-- Begins a block at a column behind the first `index` tokens, unless the place is inside brackets or
the innermost block is at that column or right of it. -/
def openBlock (column index : Nat) (token : Token) (t : Tokens) : Tokens :=
  if t.inFlow || t.blocks.head?.any (column ≤ ·) then t
  else { t.insertAt index token with blocks := column :: t.blocks }

/-! ## Keys -/

/-- Nothing before the place is a key any more; an error if one is needed. -/
def dropKey (t : Tokens) : Option Tokens :=
  if t.key.any (·.required) then none else some { t with key := none }

/-- A key may start here, if one is allowed. One is needed at the column of the innermost block. -/
def noteKey (t : Tokens) : Option Tokens :=
  if t.keyAllowed then
    (t.dropKey).map fun t =>
      { t with key := some {
          place := t.place
          index := t.read.length
          required := !t.inFlow && t.blocks.head? == some t.place.column } }
  else some t

/-- The most bytes from the start of a key to the colon behind it. -/
def longestKey : Nat := 1024

/-- The start of a key is out of reach: it is on another line, or too far away. -/
def isStale (p : Place) (k : KeyStart) : Bool :=
  k.place.line < p.line || k.place.offset + longestKey < p.offset

/-- Gives up the starts of keys that are out of reach; an error if one of them is needed. -/
def dropStale (t : Tokens) : Option Tokens :=
  let keys := t.key :: t.outer
  if keys.any (·.any fun k => k.required && isStale t.place k) then none
  else some { t with
    key := t.key.filter (!isStale t.place ·)
    outer := t.outer.map (·.filter (!isStale t.place ·)) }

/-! ## Brackets -/

/-- Opens brackets. They may start a key, and so may what follows. -/
def openFlow (token : Token) (t : Tokens) : Option Tokens :=
  (t.noteKey).map fun t =>
    ({ t with key := none, outer := t.key :: t.outer, keyAllowed := true }).take 1 token

/-- Closes brackets. -/
def closeFlow (token : Token) (t : Tokens) : Option Tokens :=
  (t.dropKey).map fun t =>
    ({ t with key := t.outer.head?.join, outer := t.outer.tail, keyAllowed := false }).take 1 token

/-! ## Single tokens -/

/-- The place of the next token: behind blanks, comments and line ends. A tab is a blank inside brackets
and where no key may start. A mark of the byte order at the beginning of a line does not count. The
first argument bounds the number of lines. -/
def toNext : Nat → Tokens → Tokens
  | 0, t => t
  | n + 1, t =>
    let p := if t.place.column == 0 && t.place.isAt '\ufeff' then t.place.skip 1 else t.place
    let p := p.skipWhile fun c => c == ' ' || (c == '\t' && (t.inFlow || !t.keyAllowed))
    let p := if p.isAt '#' then p.skipWhile (!isLineEnd ·) else p
    if p.rest.head?.any isLineEnd then
      toNext n { t with place := p.nextLine, keyAllowed := t.keyAllowed || !t.inFlow }
    else t.moveTo p

/-- A directive. -/
def directive (t : Tokens) : Option Tokens := do
  let t ← (t.closeBlocks fun _ => true).dropKey
  let (d, p) ← directive? t.place
  some ((t.push (.directive d)).moveTo p |>.allowKey false)

/-- The mark of a document. -/
def marker (token : Token) (t : Tokens) : Option Tokens :=
  ((t.closeBlocks fun _ => true).dropKey).map fun t => (t.take 3 token).allowKey false

/-- A comma. -/
def comma (t : Tokens) : Option Tokens :=
  t.dropKey.map fun t => (t.take 1 .comma).allowKey true

/-- A dash in front of an item. -/
def item (t : Tokens) : Option Tokens :=
  if !t.inFlow && !t.keyAllowed then none
  else
    (t.openBlock t.place.column t.read.length .blockListStart).dropKey.map fun t =>
      (t.take 1 .item).allowKey true

/-- A question mark in front of a key. -/
def explicitKey (t : Tokens) : Option Tokens :=
  if !t.inFlow && !t.keyAllowed then none
  else
    (t.openBlock t.place.column t.read.length .blockMapStart).dropKey.map fun t =>
      (t.take 1 .key).allowKey !t.inFlow

/-- A colon in front of a value. If a key may have started before it, it did. -/
def colon (t : Tokens) : Option Tokens :=
  match t.key with
  | some k =>
    let t := (t.insertAt k.index .key).openBlock k.place.column k.index .blockMapStart
    some (({ t with key := none }.take 1 .value).allowKey false)
  | none =>
    if !t.inFlow && !t.keyAllowed then none
    else
      let t := t.openBlock t.place.column t.read.length .blockMapStart
      some ((t.take 1 .value).allowKey !t.inFlow)

/-- What may stand directly behind the name of an anchor. -/
def endsName : List Char → Bool
  | [] => true
  | c :: _ => isSeparator c || "?:,]\x7d%@".toList.contains c || c.toNat == 0x60

/-- An anchor, or a reference to one. -/
def named (token : List Char → Token) (t : Tokens) : Option Tokens := do
  let t ← t.noteKey
  let name := (t.place.rest.drop 1).takeWhile isNameChar
  let p := t.place.skip (name.length + 1)
  if name.isEmpty || !endsName p.rest then none
  else some ((t.push (token name)).moveTo p |>.allowKey false)

/-- A tag. -/
def tag (t : Tokens) : Option Tokens := do
  let t ← t.noteKey
  let (tag, p) ← tag? t.inFlow t.place
  some ((t.push (.tag tag)).moveTo p |>.allowKey false)

/-- A block scalar. -/
def literal (t : Tokens) : Option Tokens := do
  let t ← t.dropKey
  let (text, p) ← literal? t.blocks.head? t.place
  some ((t.push (.scalar text false)).moveTo p |>.allowKey true)

/-- A quoted scalar. -/
def quoted (t : Tokens) : Option Tokens := do
  let t ← t.noteKey
  let (text, p) ← quoted? t.place
  some ((t.push (.scalar text false)).moveTo p |>.allowKey false)

/-- A plain scalar. -/
def plain (t : Tokens) : Option Tokens := do
  let t ← t.noteKey
  let s ← plain? t.inFlow ((t.blocks.head?.map (· + 1)).getD 0) t.place
  some ((t.push (.scalar s.text true)).moveTo s.place |>.allowKey s.endsLine)

/-! ## Whole texts -/

/-- Adds the token at a place that is not the end of the text. -/
def addToken (t : Tokens) : Option Tokens :=
  let p := t.place
  let isWord := t.inFlow || atBreak (p.rest.drop 1)
  match p.rest with
  | [] => none
  | c :: cs =>
    if c == '%' && p.column == 0 then t.directive
    else if p.atMarkerOf '-' then t.marker .documentStart
    else if p.atMarkerOf '.' then t.marker .documentEnd
    else if c == '[' then t.openFlow .flowListStart
    else if c == '\x7b' then t.openFlow .flowMapStart
    else if c == ']' then t.closeFlow .flowListEnd
    else if c == '\x7d' then t.closeFlow .flowMapEnd
    else if c == ',' then t.comma
    else if c == '-' && atBreak cs then t.item
    else if c == '?' && isWord then t.explicitKey
    else if c == ':' && isWord then t.colon
    else if c == '*' then t.named .reference
    else if c == '&' then t.named .anchor
    else if c == '!' then t.tag
    else if (c == '|' || c == '>') && !t.inFlow then t.literal
    else if c == '\'' || c == '"' then t.quoted
    else t.plain

/-- Adds all tokens up to the end of the text, where all blocks end. The first argument bounds their
number. -/
def addAll : Nat → Tokens → Option Tokens
  | 0, _ => none
  | n + 1, t => do
    let t ← (t.toNext (t.place.rest.length + 1)).dropStale
    if t.place.rest.isEmpty then (t.closeBlocks fun _ => true).dropKey
    else
      let t ← (t.closeBlocks (t.place.column < ·)).addToken
      addAll n t

end Tokens

/-- The tokens of a text. -/
def tokens? (cs : List Char) : Option (List Token) :=
  (Tokens.addAll (cs.length + 1) ⟨Place.start cs, [], [], none, [], true⟩).map (·.read.reverse)

end TaskSeries.Yaml
