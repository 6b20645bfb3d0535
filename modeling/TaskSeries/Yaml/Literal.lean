import TaskSeries.Yaml.Place

/-!
Block scalars: indented lines that are kept as they are or joined, behind a header that says how.
-/

namespace TaskSeries.Yaml

/-- What happens to the line ends behind a block scalar. -/
inductive Chomping
  | strip | clip | keep
deriving DecidableEq, Repr

/-- The header of a block scalar. -/
structure LiteralHeader where
  /-- Line ends are joined as in plain text. -/
  folded : Bool
  chomping : Chomping
  /-- The indentation relative to the surrounding one, if it is given. -/
  indent : Option Nat
deriving DecidableEq, Repr

/-- The sign for the treatment of line ends. -/
def chompingOf? : Char → Option Chomping
  | '-' => some .strip
  | '+' => some .keep
  | _ => none

/-- The digit for the indentation. -/
def indentOf? (c : Char) : Option Nat :=
  if '1' ≤ c ∧ c ≤ '9' then some (c.toNat - 48) else none

/-- The signs of a header, in either order, and what follows them. -/
def literalSigns (cs : List Char) : Option Chomping × Option Nat × List Char :=
  let chomping := cs.head?.bind chompingOf?
  let afterFirst := if chomping.isSome then cs.tail else cs
  let indent := afterFirst.head?.bind indentOf?
  let afterIndent := if indent.isSome then afterFirst.tail else afterFirst
  if chomping.isSome then (chomping, indent, afterIndent)
  else
    let late := if indent.isSome then afterIndent.head?.bind chompingOf? else none
    (late, indent, if late.isSome then afterIndent.tail else afterIndent)

/-- Reads the header of a block scalar with the rest of its line, which may hold a comment, and gives
the place behind the line. -/
def literalHeader? (p : Place) : Option (LiteralHeader × Place) :=
  match p.rest with
  | [] => none
  | c :: cs =>
    let (chomping, indent, rest) := literalSigns cs
    let p := (p.upTo rest).skipWhile isInlineBlank
    let p := if p.isAt '#' then p.skipWhile (!isLineEnd ·) else p
    if p.rest.isEmpty || p.rest.head?.any isLineEnd then
      some (⟨c == '>', chomping.getD .clip, indent⟩, p.nextLine)
    else none

/-- Empty lines: their ends, the greatest indentation among them and the first other line, and the number
of their characters with that indentation. Blanks from the column `limit` on are part of a line, and no
tab stands left of it. -/
def emptyLines (limit : Option Nat) (column widest : Nat) :
    List Char → Option (List Char × Nat × Nat)
  | [] => some ([], max widest column, 0)
  | c :: cs =>
    let isLeft := limit.all (column < ·)
    if c == ' ' && isLeft then
      (emptyLines limit (column + 1) widest cs).map
        fun (breaks, widest, length) => (breaks, widest, length + 1)
    else if c == '\t' && isLeft then none
    else if isLineEnd c then
      (emptyLines limit 0 (max widest column) cs).map
        fun (breaks, widest, length) => (c :: breaks, widest, length + 1)
    else some ([], max widest column, 0)

/-- A block scalar while its lines are read. -/
structure LiteralText where
  text : List Char := []
  /-- The last line began with a blank. -/
  leadingBlank : Bool := false
  /-- The end of the last line. -/
  lineEnd : List Char := []
  /-- The ends of the empty lines since the last line. -/
  empty : List Char := []
deriving DecidableEq, Repr

/-- Adds a line. Between two lines that begin without a blank a single line feed becomes a space when
lines are folded. -/
def LiteralText.push (folded : Bool) (t : LiteralText) (line : List Char) : LiteralText :=
  let blank := line.head?.any isInlineBlank
  let joined :=
    if folded && t.lineEnd == ['\n'] && !t.leadingBlank && !blank then
      if t.empty.isEmpty then [' '] else []
    else t.lineEnd
  { text := t.text ++ joined ++ t.empty ++ line, leadingBlank := blank }

/-- The text with the line ends behind it. -/
def LiteralText.finish (t : LiteralText) : Chomping → List Char
  | .strip => t.text
  | .clip => t.text ++ t.lineEnd
  | .keep => t.text ++ t.lineEnd ++ t.empty

/-- Adds the lines at the column `indent`. The first argument bounds their number. -/
def literalLines (folded : Bool) (indent : Nat) :
    Nat → LiteralText → Place → Option (LiteralText × Place)
  | 0, _, _ => none
  | n + 1, t, p =>
    if p.column == indent && !p.rest.isEmpty then do
      let line := p.rest.takeWhile (!isLineEnd ·)
      let t := t.push folded line
      let p := p.skip line.length
      let t := { t with lineEnd := p.rest.take 1 }
      let p := p.nextLine
      let (empty, _, length) ← emptyLines (some indent) p.column 0 p.rest
      literalLines folded indent n { t with empty := empty } (p.skip length)
    else some (t, p)

/-- Reads a block scalar inside a block at the column `outer`, if there is one around it, and gives the
place behind it. -/
def literal? (outer : Option Nat) (p : Place) : Option (List Char × Place) := do
  let (header, p) ← literalHeader? p
  let given := header.indent.map (outer.getD 0 + ·)
  let (empty, widest, length) ← emptyLines given p.column 0 p.rest
  let least := max 1 ((outer.map (· + 1)).getD 0)
  let indent := given.getD (max widest least)
  let (t, p) ← literalLines header.folded indent (p.rest.length + 1) { empty := empty } (p.skip length)
  some (t.finish header.chomping, p)

end TaskSeries.Yaml
