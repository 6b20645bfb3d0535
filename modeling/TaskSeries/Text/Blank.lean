/-!
White space and letter case as the rest of the library reads them: blanks are the white space of
Unicode, and folding to lower case for keywords touches the letters A to Z only.
-/

namespace TaskSeries.Text

/-- The characters with the Unicode property White_Space. -/
def isBlank (c : Char) : Bool :=
  let n := c.toNat
  (9 ≤ n && n ≤ 13) || n == 0x20 || n == 0x85 || n == 0xA0 || n == 0x1680
    || (0x2000 ≤ n && n ≤ 0x200A) || n == 0x2028 || n == 0x2029 || n == 0x202F
    || n == 0x205F || n == 0x3000

/-- Drops the blanks in front. -/
def skipBlanks (cs : List Char) : List Char :=
  cs.dropWhile isBlank

/-- Drops the blanks in front and behind. -/
def trimChars (cs : List Char) : List Char :=
  (skipBlanks (skipBlanks cs).reverse).reverse

/-- A text without the blanks in front and behind. -/
def trim (s : String) : String :=
  String.ofList (trimChars s.toList)

/-- Lower case for the letters A to Z; every other character stays. -/
def lowerAscii (cs : List Char) : List Char :=
  cs.map Char.toLower

/-- The keyword that a text spells: trimmed, and in lower case for A to Z. -/
def keyword (s : String) : String :=
  String.ofList (lowerAscii (trimChars s.toList))

/-- The white space that pattern classes know: tab, line feed, vertical tab, form feed, carriage
return and the space. -/
def isAsciiSpace (c : Char) : Bool :=
  (9 ≤ c.toNat && c.toNat ≤ 13) || c == ' '

/-- Cuts a text at the first character that satisfies `p`; the character belongs to neither part. -/
def splitFirst (p : Char → Bool) (cs : List Char) : Option (List Char × List Char) :=
  match cs.dropWhile (fun c => !p c) with
  | [] => none
  | _ :: rest => some (cs.takeWhile (fun c => !p c), rest)

/-- Cuts a text at the last character that satisfies `p`, and names that character. -/
def splitLast (p : Char → Bool) (cs : List Char) : Option (List Char × Char × List Char) :=
  match cs.reverse.dropWhile (fun c => !p c) with
  | [] => none
  | c :: front => some (front.reverse, c, (cs.reverse.takeWhile (fun c => !p c)).reverse)

/-- The rest of a text behind a given beginning. -/
def afterStart {α : Type} [DecidableEq α] : List α → List α → Option (List α)
  | [], rest => some rest
  | _ :: _, [] => none
  | p :: ps, c :: cs => if p = c then afterStart ps cs else none

end TaskSeries.Text
