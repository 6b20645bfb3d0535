import TaskSeries.Text.Blank

/-!
Places in a YAML text: the line and the column of a place with what follows it, the characters that
separate tokens, and the joining of lines inside a scalar.
-/

namespace TaskSeries.Yaml

/-- A blank inside a line. -/
def isInlineBlank (c : Char) : Bool :=
  c == ' ' || c == '\t'

/-- A character that ends a line: the line feed, and the separators of lines and of paragraphs. -/
def isLineEnd (c : Char) : Bool :=
  c == '\n' || c.toNat == 0x2028 || c.toNat == 0x2029

/-- A blank or a line end. -/
def isSeparator (c : Char) : Bool :=
  isInlineBlank c || isLineEnd c

/-- The text is at a blank, a line end or its own end. -/
def atBreak : List Char → Bool
  | [] => true
  | c :: _ => isSeparator c

/-- A place in a text. -/
structure Place where
  /-- The number of lines in front. -/
  line : Nat
  /-- The number of characters in front on the same line. -/
  column : Nat
  /-- The number of bytes in front. -/
  offset : Nat
  /-- What follows. -/
  rest : List Char
deriving DecidableEq, Repr

namespace Place

/-- The beginning of a text. -/
def start (cs : List Char) : Place := ⟨0, 0, 0, cs⟩

/-- The place behind characters that follow. -/
def behind (cs : List Char) (p : Place) : Place where
  line := p.line + cs.countP isLineEnd
  column := (if cs.any isLineEnd then 0 else p.column)
    + (cs.reverse.takeWhile (!isLineEnd ·)).length
  offset := p.offset + (String.ofList cs).utf8ByteSize
  rest := p.rest.drop cs.length

/-- The place a number of characters further on. -/
def skip (n : Nat) (p : Place) : Place :=
  p.behind (p.rest.take n)

/-- The first place at which a condition does not hold any more. -/
def skipWhile (keep : Char → Bool) (p : Place) : Place :=
  p.behind (p.rest.takeWhile keep)

/-- The place at which a given end of the text follows. -/
def upTo (rest : List Char) (p : Place) : Place :=
  p.skip (p.rest.length - rest.length)

/-- The beginning of the next line, at the end of a line. -/
def nextLine (p : Place) : Place :=
  if p.rest.head?.any isLineEnd then p.skip 1 else p

/-- The text is at a character. -/
def isAt (c : Char) (p : Place) : Bool :=
  p.rest.head? == some c

/-- Three equal characters at the beginning of a line, with a separator behind them. -/
def atMarkerOf (c : Char) (p : Place) : Bool :=
  p.column == 0 && p.rest.take 3 == [c, c, c] && atBreak (p.rest.drop 3)

/-- The mark of the beginning or of the end of a document. -/
def atMarker (p : Place) : Bool :=
  p.atMarkerOf '-' || p.atMarkerOf '.'

end Place

/-- Blanks and line ends between two parts of a scalar. -/
structure Gap where
  /-- The blanks in front of the first line end. -/
  blanks : List Char
  /-- The line ends. -/
  breaks : List Char
  /-- The place behind them. -/
  place : Place
deriving DecidableEq, Repr

/-- The gap at a place. -/
def Place.gap (p : Place) : Gap :=
  ⟨p.rest.takeWhile isInlineBlank, (p.rest.takeWhile isSeparator).filter isLineEnd,
    p.skipWhile isSeparator⟩

/-- What line ends become when the lines around them are joined: a single line feed is a space, and of
several the first is dropped. Other line ends stay. -/
def joinBreaks : List Char → List Char
  | ['\n'] => [' ']
  | '\n' :: more => more
  | breaks => breaks

/-- The text that a gap stands for. -/
def Gap.text (g : Gap) : List Char :=
  if g.breaks.isEmpty then g.blanks else joinBreaks g.breaks

/-- Whether a tab stands left of the column `indent` on one of the lines behind the first, among the
blanks in front. -/
def tabIndents (indent : Nat) (later : Bool) (column : Nat) : List Char → Bool
  | [] => false
  | c :: cs =>
    if isLineEnd c then tabIndents indent true 0 cs
    else if c == '\t' && later && column < indent then true
    else if isInlineBlank c then tabIndents indent later (column + 1) cs
    else false

end TaskSeries.Yaml
