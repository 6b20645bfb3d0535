import TaskSeries.Yaml.Quoted

/-!
Tags and directives. A tag says what a value stands for; it is written in full, or behind a handle for
which a directive in front of the document gives the beginning.
-/

namespace TaskSeries.Yaml

/-- The characters of names. -/
def isNameChar (c : Char) : Bool :=
  c.isAlphanum || c == '_' || c == '-'

/-- A tag as it is written: a handle, and what follows it. Without a handle it is written in full. -/
structure TagText where
  handle : List Char
  suffix : List Char
deriving DecidableEq, Repr

/-- The tag without a name. -/
def TagText.bare : TagText := ⟨[], ['!']⟩

/-- The characters of tags, escapes included. Between angle brackets (`verbatim`) there are more. -/
def isTagChar (verbatim : Bool) (c : Char) : Bool :=
  isNameChar c || ";/?:@&=+$.%!~*'()".toList.contains c
    || (verbatim && (c == ',' || c == '[' || c == ']'))

/-- The number of bytes of a character whose first byte is given, in the encoding of escapes. -/
def encodedLength? (byte : Nat) : Option Nat :=
  if byte < 0x80 then some 1
  else if byte < 0xC0 then none
  else if byte < 0xE0 then some 2
  else if byte < 0xF0 then some 3
  else if byte < 0xF8 then some 4
  else none

/-- A byte that is escaped by a percent sign and two hexadecimal digits. -/
def escapedByte : List Char → Option (Nat × List Char)
  | '%' :: cs => hexNumber 2 0 cs
  | _ => none

/-- The later bytes of an escaped character. -/
def laterBytes : Nat → List Char → Option (List Nat × List Char)
  | 0, cs => some ([], cs)
  | n + 1, cs => do
    let (byte, rest) ← escapedByte cs
    if byte / 64 = 2 then
      let (bytes, rest) ← laterBytes n rest
      some (byte :: bytes, rest)
    else none

/-- The bytes of an escaped character. -/
def escapedBytes (cs : List Char) : Option (List Nat × List Char) := do
  let (byte, rest) ← escapedByte cs
  let (bytes, rest) ← laterBytes ((← encodedLength? byte) - 1) rest
  some (byte :: bytes, rest)

/-- The characters of a tag, each escaped byte being a character of its own. The first argument bounds
their number. -/
def tagChars (verbatim : Bool) : Nat → List Char → Option (List Char × List Char)
  | 0, _ => none
  | _ + 1, [] => some ([], [])
  | n + 1, c :: cs =>
    if !isTagChar verbatim c then some ([], c :: cs)
    else do
      let (front, rest) ← if c == '%' then
          (escapedBytes (c :: cs)).map fun (bytes, rest) => (bytes.map Char.ofNat, rest)
        else some ([c], cs)
      let (more, rest) ← tagChars verbatim n rest
      some (front ++ more, rest)

/-- The characters of a tag, at least one. -/
def someTagChars (verbatim : Bool) (cs : List Char) : Option (List Char × List Char) := do
  let (text, rest) ← tagChars verbatim (cs.length + 1) cs
  if text.isEmpty then none else some (text, rest)

/-- A handle: an exclamation mark, or a name between two of them. A name with no mark behind it may be
part of a tag. -/
def handle? : List Char → Option (List Char × List Char)
  | '!' :: cs =>
    let name := cs.takeWhile isNameChar
    match cs.dropWhile isNameChar with
    | '!' :: rest => some ('!' :: name ++ ['!'], rest)
    | rest => some ('!' :: name, rest)
  | _ => none

/-- The tag at an exclamation mark, and what follows it. -/
def tagText? : List Char → Option (TagText × List Char)
  | '!' :: '<' :: cs => do
    let (text, rest) ← someTagChars true cs
    match rest with
    | '>' :: rest => some (⟨[], text⟩, rest)
    | _ => none
  | cs => do
    let (handle, rest) ← handle? cs
    if 1 < handle.length && handle.getLast? == some '!' then
      let (suffix, rest) ← someTagChars false rest
      some (⟨handle, suffix⟩, rest)
    else
      let (more, rest) ← tagChars false (rest.length + 1) rest
      let suffix := handle.drop 1 ++ more
      some (if suffix.isEmpty then .bare else ⟨['!'], suffix⟩, rest)

/-- Reads a tag. It ends with a separator, inside brackets also with a comma. -/
def tag? (flow : Bool) (p : Place) : Option (TagText × Place) := do
  let (tag, rest) ← tagText? p.rest
  if atBreak rest || (flow && rest.head? == some ',') then some (tag, p.upTo rest) else none

/-! ## Directives -/

/-- What a directive says about the document behind it. -/
inductive Directive
  /-- The version of the language. -/
  | version (major minor : Nat)
  /-- What the tags with a handle begin with. -/
  | handle (name start : List Char)
deriving DecidableEq, Repr

/-- A number of at most nine digits. -/
def versionNumber (cs : List Char) : Option (Nat × List Char) :=
  let ds := cs.takeWhile Char.isDigit
  if ds.isEmpty || 9 < ds.length then none
  else some (Text.natOfDigits ds, cs.dropWhile Char.isDigit)

/-- The version that a directive names. -/
def version? (cs : List Char) : Option (Directive × List Char) := do
  let (major, rest) ← versionNumber (cs.dropWhile isInlineBlank)
  match rest with
  | '.' :: rest =>
    let (minor, rest) ← versionNumber rest
    some (.version major minor, rest)
  | _ => none

/-- The handle that a directive explains. -/
def handleDirective? (cs : List Char) : Option (Directive × List Char) := do
  let (handle, rest) ← handle? (cs.dropWhile isInlineBlank)
  if handle.length == 1 || handle.getLast? == some '!' then
    if rest.head?.any isInlineBlank then
      let (start, rest) ← someTagChars true (rest.dropWhile isInlineBlank)
      if atBreak rest then some (.handle handle start, rest) else none
    else none
  else none

/-- Reads a directive with the rest of its line, which may hold a comment, and gives the place behind
the line. -/
def directive? (p : Place) : Option (Directive × Place) := do
  let cs := p.rest.drop 1
  let name := cs.takeWhile isNameChar
  let cs := cs.dropWhile isNameChar
  if !atBreak cs then none
  else
    let (directive, rest) ←
      if name == "YAML".toList then version? cs
      else if name == "TAG".toList then handleDirective? cs
      else none
    let p := (p.upTo rest).skipWhile isInlineBlank
    let p := if p.isAt '#' then p.skipWhile (!isLineEnd ·) else p
    if p.rest.isEmpty || p.rest.head?.any isLineEnd then some (directive, p.nextLine) else none

/-- The handles that need no directive. -/
def standardHandles : List (List Char × List Char) :=
  [(['!'], ['!']), (['!', '!'], "tag:yaml.org,2002:".toList)]

/-- The tag in full, if its handle is known. -/
def TagText.resolve? (handles : List (List Char × List Char)) (t : TagText) : Option (List Char) :=
  if t.handle.isEmpty then some t.suffix
  else (handles.find? (·.1 == t.handle)).map fun (_, start) => start ++ t.suffix

end TaskSeries.Yaml
