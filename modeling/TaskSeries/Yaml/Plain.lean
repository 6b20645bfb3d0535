import TaskSeries.Yaml.Place

/-!
Plain scalars: text without quotes, over one line or several.
-/

namespace TaskSeries.Yaml

/-- The characters that structure a text inside brackets. -/
def isFlowIndicator (c : Char) : Bool :=
  c == ',' || c == '[' || c == ']' || c == '\x7b' || c == '\x7d'

/-- The characters that start no plain scalar. -/
def isIndicator (c : Char) : Bool :=
  isFlowIndicator c || c == '#' || c == '&' || c == '*' || c == '!' || c == '|' || c == '>'
    || c == '\'' || c == '"' || c == '%' || c == '@' || c.toNat == 0x60

/-- Whether a plain scalar starts here. A dash does with something behind it, and outside brackets
so do a question mark and a colon. -/
def startsPlain (flow : Bool) : List Char → Bool
  | [] => false
  | c :: cs =>
    if c == '-' then !atBreak cs
    else if c == '?' || c == ':' then !flow && !atBreak cs
    else !isIndicator c && !isSeparator c

/-- A colon that must not stand inside brackets: what follows is part of the structure. -/
def isTightColon : List Char → Bool
  | ':' :: c :: _ => isFlowIndicator c || c == '?'
  | _ => false

/-- A part of a plain scalar without blanks, and what follows it. -/
def plainWord (flow : Bool) : List Char → Option (List Char × List Char)
  | [] => some ([], [])
  | c :: cs =>
    if isSeparator c || (c == ':' && atBreak cs) then some ([], c :: cs)
    else if flow && isTightColon (c :: cs) then none
    else if flow && isFlowIndicator c then some ([], c :: cs)
    else (plainWord flow cs).map fun (word, rest) => (c :: word, rest)

/-- A plain scalar that was read. -/
structure PlainText where
  text : List Char
  place : Place
  /-- The scalar ended with its line. -/
  endsLine : Bool
deriving DecidableEq, Repr

/-- A plain scalar whose later lines are at the column `indent` at least, inside brackets at any
column. The first argument bounds the number of its words. -/
def plainWords (flow : Bool) (indent : Nat) : Nat → Place → Option PlainText
  | 0, _ => none
  | n + 1, p =>
    if p.atMarker || p.isAt '#' then some ⟨[], p, false⟩
    else do
      let (word, rest) ← plainWord flow p.rest
      let p := p.skip word.length
      if rest.isEmpty || !atBreak rest then some ⟨word, p, false⟩
      else
        let g := p.gap
        let broken := !g.breaks.isEmpty
        if tabIndents indent false 0 rest then none
        else if !flow && g.place.column < indent then some ⟨word, g.place, broken⟩
        else
          let more ← plainWords flow indent n g.place
          if more.text.isEmpty then some ⟨word, more.place, broken || more.endsLine⟩
          else some { more with text := word ++ g.text ++ more.text }

/-- Reads a plain scalar, if one starts here. -/
def plain? (flow : Bool) (indent : Nat) (p : Place) : Option PlainText :=
  if startsPlain flow p.rest then plainWords flow indent (p.rest.length + 1) p else none

end TaskSeries.Yaml
