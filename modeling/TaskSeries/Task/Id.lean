import TaskSeries.Text.Blank

/-!
Task identifiers: 128 bits as 32 hexadecimal digits. They are written in lower case with hyphens and
read in four spellings; a task is also addressed by the beginning of its written form.
-/

namespace TaskSeries

open TaskSeries.Text

/-- A task identifier. -/
structure TaskId where
  digits : List (Fin 16)
  length_digits : digits.length = 32
deriving DecidableEq

namespace TaskId

instance : Hashable TaskId :=
  ⟨fun id => id.digits.foldl (fun h d => mixHash h (UInt64.ofNat d.val)) 7⟩

/-- The lower-case character of a hexadecimal digit. -/
def hexChar (d : Fin 16) : Char :=
  if d.val < 10 then Char.ofNat (48 + d.val) else Char.ofNat (87 + d.val)

/-- The hexadecimal digit that a character of either case stands for. -/
def hexDigit? (c : Char) : Option (Fin 16) :=
  let n := c.toNat
  if 48 ≤ n ∧ n ≤ 57 then some (Fin.ofNat 16 (n - 48))
  else if 97 ≤ n ∧ n ≤ 102 then some (Fin.ofNat 16 (n - 87))
  else if 65 ≤ n ∧ n ≤ 70 then some (Fin.ofNat 16 (n - 55))
  else none

/-- The identifier with the given digits, if there are 32. -/
def ofDigits? (ds : List (Fin 16)) : Option TaskId :=
  if h : ds.length = 32 then some ⟨ds, h⟩ else none

/-- The 32 digits as characters. -/
def simpleChars (id : TaskId) : List Char :=
  id.digits.map hexChar

/-- The written form as characters: groups of eight, three times four, and twelve digits with hyphens
between them. -/
def chars (id : TaskId) : List Char :=
  let cs := id.simpleChars
  cs.take 8 ++ '-' :: (cs.drop 8).take 4 ++ '-' :: (cs.drop 12).take 4 ++ '-' :: (cs.drop 16).take 4
    ++ '-' :: cs.drop 20

/-- The written form. -/
def text (id : TaskId) : String :=
  String.ofList id.chars

/-- The first eight digits, which stand for the task in listings. -/
def shortText (id : TaskId) : String :=
  String.ofList (id.simpleChars.take 8)

/-- The number that the digits spell. -/
def number (id : TaskId) : Nat :=
  id.digits.foldl (fun n d => 16 * n + d.val) 0

/-- Identifiers in the order of the numbers they spell. -/
def le (a b : TaskId) : Bool :=
  decide (a.number ≤ b.number)

/-- Reads 32 digits. -/
def ofSimple? (cs : List Char) : Option TaskId :=
  (cs.mapM hexDigit?).bind ofDigits?

/-- Reads digits in the groups of the written form. -/
def ofHyphenated? (cs : List Char) : Option TaskId :=
  if cs.length = 36 ∧ [8, 13, 18, 23].all (fun i => cs[i]? == some '-') then
    ofSimple? (cs.take 8 ++ (cs.drop 9).take 4 ++ (cs.drop 14).take 4 ++ (cs.drop 19).take 4
      ++ cs.drop 24)
  else none

/-- Reads an identifier with hyphens, in braces, behind `urn:uuid:` in any letter case, or as plain
digits. -/
def ofChars? (cs : List Char) : Option TaskId :=
  match cs.length with
  | 32 => ofSimple? cs
  | 36 => ofHyphenated? cs
  | 38 =>
    if cs.head? = some '\x7b' ∧ cs.getLast? = some '\x7d' then ofHyphenated? ((cs.drop 1).take 36)
    else none
  | 45 => if lowerAscii (cs.take 9) = "urn:uuid:".toList then ofHyphenated? (cs.drop 9) else none
  | _ => none

/-- Reads an identifier in any of its spellings. -/
def ofText? (s : String) : Option TaskId :=
  ofChars? s.toList

/-- A character that occurs in the written form, once letters are in lower case. -/
def isIdChar (c : Char) : Bool :=
  c == '-' || (hexDigit? c).isSome

/-- The characters that a token puts in front. Letter case and surrounding blanks of the token do not
matter. -/
def startChars (token : String) : List Char :=
  lowerAscii (trimChars token.toList)

/-- The token may be the start of a written form. -/
def isStart (token : String) : Bool :=
  !(startChars token).isEmpty && (startChars token).all isIdChar

/-- Whether the written form starts with a token. The empty token is the start of nothing. -/
def hasStart (id : TaskId) (token : String) : Bool :=
  isStart token && (startChars token).isPrefixOf id.chars

end TaskId

end TaskSeries
