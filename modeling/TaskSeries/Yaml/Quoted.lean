import TaskSeries.Json.Parser
import TaskSeries.Yaml.Place

/-!
Quoted scalars. Lines inside quotes are joined as in plain text; a quote is written twice between
single quotes, and a backslash escapes between double quotes. No line of a quoted scalar is the mark
of a document.
-/

namespace TaskSeries.Yaml

/-- A number of hexadecimal digits. -/
def hexNumber : Nat → Nat → List Char → Option (Nat × List Char)
  | 0, n, cs => some (n, cs)
  | _ + 1, _, [] => none
  | k + 1, n, c :: cs => do
    let d ← Json.hexValue? c
    hexNumber k (16 * n + d) cs

/-- The character with the number that hexadecimal digits give. -/
def numbered (digits : Nat) (cs : List Char) : Option (Char × List Char) := do
  let (n, rest) ← hexNumber digits 0 cs
  if (0xD800 ≤ n ∧ n ≤ 0xDFFF) ∨ 0x10FFFF < n then none else some (Char.ofNat n, rest)

/-- The character of an escape, behind its backslash. -/
def escape : List Char → Option (Char × List Char)
  | [] => none
  | c :: cs =>
    match c with
    | '0' => some ('\x00', cs)
    | 'a' => some ('\x07', cs)
    | 'b' => some ('\x08', cs)
    | 't' => some ('\t', cs)
    | '\t' => some ('\t', cs)
    | 'n' => some ('\n', cs)
    | 'v' => some ('\x0b', cs)
    | 'f' => some ('\x0c', cs)
    | 'r' => some ('\r', cs)
    | 'e' => some ('\x1b', cs)
    | ' ' => some (' ', cs)
    | '"' => some ('"', cs)
    | '/' => some ('/', cs)
    | '\\' => some ('\\', cs)
    | 'N' => some (Char.ofNat 0x85, cs)
    | '_' => some (Char.ofNat 0xA0, cs)
    | 'L' => some (Char.ofNat 0x2028, cs)
    | 'P' => some (Char.ofNat 0x2029, cs)
    | 'x' => numbered 2 cs
    | 'u' => numbered 4 cs
    | 'U' => numbered 8 cs
    | _ => none

/-- Puts characters in front of a text that was read. -/
def andThen (front : List Char) (read : Option (List Char × Place)) : Option (List Char × Place) :=
  read.map fun (text, p) => (front ++ text, p)

/-- The rest of a scalar between single quotes, and the place behind it. The first argument bounds its
length. -/
def singleQuoted : Nat → Place → Option (List Char × Place)
  | 0, _ => none
  | n + 1, p =>
    if p.atMarker then none
    else match p.rest with
      | [] => none
      | '\'' :: '\'' :: _ => andThen ['\''] (singleQuoted n (p.skip 2))
      | '\'' :: _ => some ([], p.skip 1)
      | c :: _ =>
        if isSeparator c then andThen p.gap.text (singleQuoted n p.gap.place)
        else andThen [c] (singleQuoted n (p.skip 1))

/-- The rest of a scalar between double quotes, and the place behind it. An escaped line end is nothing.
The first argument bounds its length. -/
def doubleQuoted : Nat → Place → Option (List Char × Place)
  | 0, _ => none
  | n + 1, p =>
    if p.atMarker then none
    else match p.rest with
      | [] => none
      | '"' :: _ => some ([], p.skip 1)
      | '\\' :: cs =>
        if (cs.take 1).any isLineEnd then
          let g := (p.skip 1).nextLine.gap
          andThen g.breaks (doubleQuoted n g.place)
        else do
          let (c, rest) ← escape cs
          andThen [c] (doubleQuoted n (p.upTo rest))
      | c :: _ =>
        if isSeparator c then andThen p.gap.text (doubleQuoted n p.gap.place)
        else andThen [c] (doubleQuoted n (p.skip 1))

/-- Reads a quoted scalar, if one starts here. -/
def quoted? (p : Place) : Option (List Char × Place) :=
  match p.rest with
  | '\'' :: cs => singleQuoted (cs.length + 1) (p.skip 1)
  | '"' :: cs => doubleQuoted (cs.length + 1) (p.skip 1)
  | _ => none

end TaskSeries.Yaml
