import TaskSeries.Text.CaseTable

/-!
Lower case for all of Unicode: each character by its simple mapping, with two exceptions. A capital
I with a dot becomes two characters, and a capital sigma at the end of a word becomes the final
sigma.
-/

namespace TaskSeries.Text

/-- Whether a code point lies in one of the ranges. -/
def inRanges (ranges : List (Nat × Nat)) (n : Nat) : Bool :=
  ranges.any fun (first, last) => first ≤ n && n ≤ last

/-- A character without influence on the case of its neighbours. -/
def isCaseIgnorable (c : Char) : Bool :=
  inRanges caseIgnorableRanges c.toNat

/-- A character that has case. -/
def isCased (c : Char) : Bool :=
  inRanges casedRanges c.toNat

/-- The lower-case letter that belongs to a character by the simple mappings. -/
def lowerSimple (c : Char) : Char :=
  let n := c.toNat
  match lowerMappings.find? fun (first, last, step, _) =>
      first ≤ n && n ≤ last && (n - first) % step == 0 with
  | some (_, _, _, shift) => Char.ofNat ((n : Int) + shift).toNat
  | none => c

/-- Whether the first character that is not case-ignorable has case. -/
def meetsCased (cs : List Char) : Bool :=
  match cs.dropWhile isCaseIgnorable with
  | c :: _ => isCased c
  | [] => false

/-- The lower case of a character between the text in front of it, reversed, and the text that
follows. -/
def lowerAt (before : List Char) (c : Char) (after : List Char) : List Char :=
  if c.toNat < 0x80 then [c.toLower]
  else if c == 'Σ' then
    if meetsCased before && !meetsCased after then ['ς'] else ['σ']
  else if c == 'İ' then ['i', '\u0307']
  else [lowerSimple c]

/-- Lower case of the characters behind `before`, which is the reversed text in front of them. -/
def lowerFrom (before : List Char) : List Char → List Char
  | [] => []
  | c :: after => lowerAt before c after ++ lowerFrom (c :: before) after

/-- A text in lower case. -/
def lowercase (s : String) : String :=
  String.ofList (lowerFrom [] s.toList)

end TaskSeries.Text
