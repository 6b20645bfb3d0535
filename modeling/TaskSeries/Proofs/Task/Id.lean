import Mathlib.Tactic.Lemma
import Mathlib.Tactic.SplitIfs
import TaskSeries.Proofs.Text.Characters
import TaskSeries.Task.Id

/-!
# Written identifiers

The written form of an identifier reads as that identifier (`TaskId.ofText?_text`), so that no two
identifiers are written alike. None of its beginnings reads as an identifier (`TaskId.ofText?_start`).
-/

namespace TaskSeries.TaskId

open TaskSeries.Text

lemma hexDigit?_hexChar (d : Fin 16) : hexDigit? (hexChar d) = some d := by
  revert d
  decide

lemma length_simpleChars (id : TaskId) : id.simpleChars.length = 32 := by
  unfold simpleChars
  rw [List.length_map, id.length_digits]

/-- Thirty-two digits are read back to the id that they were written for. -/
lemma ofSimple?_simpleChars (id : TaskId) : ofSimple? id.simpleChars = some id := by
  have hdigits : id.simpleChars.mapM hexDigit? = some id.digits := by
    unfold simpleChars
    induction id.digits with
    | nil => rfl
    | cons d ds ih => simp [hexDigit?_hexChar, ih]
  unfold ofSimple?
  rw [hdigits]
  exact dif_pos id.length_digits

/-- Groups of digits with hyphens between them read as the digits in a row. -/
lemma ofHyphenated?_groups {a b c d e : List Char} (ha : a.length = 8) (hb : b.length = 4)
    (hc : c.length = 4) (hd : d.length = 4) (he : e.length = 12) :
    ofHyphenated? (a ++ '-' :: b ++ '-' :: c ++ '-' :: d ++ '-' :: e) =
      ofSimple? (a ++ b ++ c ++ d ++ e) := by
  unfold ofHyphenated?
  simp only [List.append_assoc, List.cons_append]
  rw [if_pos]
  · simp (disch := omega) [List.drop_append, List.drop_eq_nil_of_le, ha, hb, hc, hd]
  · simp [List.getElem?_append, ha, hb, hc, hd, he]

lemma length_chars (id : TaskId) : id.chars.length = 36 := by
  have hlength := id.length_simpleChars
  unfold chars
  simp [hlength]

/-- The written form of an identifier reads as that identifier. -/
lemma ofText?_text (id : TaskId) : ofText? id.text = some id := by
  have hlength := id.length_simpleChars
  have hnext : ∀ m n, (id.simpleChars.drop m).take n ++ id.simpleChars.drop (m + n) =
      id.simpleChars.drop m := by
    intro m n
    rw [← List.drop_drop, List.take_append_drop]
  have hjoined : id.simpleChars.take 8 ++ (id.simpleChars.drop 8).take 4
      ++ (id.simpleChars.drop 12).take 4 ++ (id.simpleChars.drop 16).take 4
      ++ id.simpleChars.drop 20 = id.simpleChars := by
    simp only [List.append_assoc, hnext 16 4, hnext 12 4, hnext 8 4, List.take_append_drop]
  unfold ofText? text
  rw [String.toList_ofList]
  unfold ofChars?
  rw [length_chars]
  show ofHyphenated? id.chars = some id
  unfold chars
  rw [ofHyphenated?_groups, hjoined, ofSimple?_simpleChars]
  all_goals simp [hlength]

/-- Different ids are written differently. -/
lemma text_injective {a b : TaskId} (h : a.text = b.text) : a = b := by
  have ha := ofText?_text a
  rw [h, ofText?_text] at ha
  exact (Option.some.inj ha).symm

/-! ## Characters of identifiers -/

/-- The characters of ids are the hyphen, the digits and the letters up to F, small or capital. -/
lemma isIdChar_iff (c : Char) :
    isIdChar c = true ↔ c.toNat = 45 ∨ 48 ≤ c.toNat ∧ c.toNat ≤ 57 ∨ 65 ≤ c.toNat ∧ c.toNat ≤ 70 ∨
      97 ≤ c.toNat ∧ c.toNat ≤ 102 := by
  have hhyphen : c = '-' ↔ c.toNat = 45 := Char.toNat_inj.symm
  unfold isIdChar hexDigit?
  rw [Bool.or_eq_true, beq_iff_eq, hhyphen]
  dsimp only
  split_ifs <;> simp <;> omega

/-- Letter case does not matter in an identifier. -/
lemma isIdChar_toLower (c : Char) : isIdChar c.toLower = isIdChar c := by
  rw [Bool.eq_iff_iff, isIdChar_iff, isIdChar_iff]
  rcases toLower_cases c with hsame | ⟨hge, hle, hlower⟩
  · rw [hsame]
  · omega

/-- A hexadecimal digit is written with a character of ids, in small letters. -/
lemma hexChar_spec (d : Fin 16) : isIdChar (hexChar d) = true ∧ (hexChar d).toLower = hexChar d := by
  revert d
  decide

/-- The characters of the written form are digits and hyphens in lower case. -/
lemma spec_of_mem_chars {id : TaskId} {c : Char} (h : c ∈ id.chars) :
    isIdChar c = true ∧ c.toLower = c := by
  have hcases : c = '-' ∨ c ∈ id.simpleChars := by
    unfold chars at h
    simp only [List.mem_append, List.mem_cons] at h
    grind [List.mem_of_mem_take, List.mem_of_mem_drop]
  rcases hcases with rfl | hmem
  · decide
  · obtain ⟨d, -, rfl⟩ := List.mem_map.mp hmem
    exact hexChar_spec d

lemma isBlank_of_isIdChar {c : Char} (h : isIdChar c = true) : isBlank c = false := by
  rw [isIdChar_iff] at h
  exact isBlank_eq_false (by omega) (by omega)

lemma utf8Size_of_isIdChar {c : Char} (h : isIdChar c = true) : c.utf8Size = 1 := by
  rw [isIdChar_iff] at h
  refine Char.utf8Size_eq_one_iff.mpr (UInt32.le_iff_toNat_le.mpr ?_)
  show c.toNat ≤ 127
  omega

/-! ## Beginnings of the written form -/

/-- The first `n` characters of the written form. -/
def start (id : TaskId) (n : Nat) : String :=
  String.ofList (id.chars.take n)

lemma trim_start (id : TaskId) (n : Nat) : trim (id.start n) = id.start n := by
  refine trim_eq_self fun c hc => ?_
  rw [start, String.toList_ofList] at hc
  exact isBlank_of_isIdChar (spec_of_mem_chars (List.mem_of_mem_take hc)).1

lemma lowerAscii_start (id : TaskId) (n : Nat) :
    lowerAscii (id.start n).toList = id.chars.take n := by
  rw [start, String.toList_ofList]
  refine (List.map_congr_left fun c hc => ?_).trans (List.map_id _)
  exact (spec_of_mem_chars (List.mem_of_mem_take hc)).2

/-- A text made of characters of ids has as many bytes as characters. -/
lemma utf8ByteSize_ofList {cs : List Char} (h : ∀ c ∈ cs, isIdChar c = true) :
    (String.ofList cs).utf8ByteSize = cs.length := by
  induction cs with
  | nil => rfl
  | cons c cs ih =>
    obtain ⟨hc, hcs⟩ := List.forall_mem_cons.mp h
    rw [String.ofList_cons, String.utf8ByteSize_append, String.utf8ByteSize_singleton, ih hcs,
      utf8Size_of_isIdChar hc, List.length_cons, Nat.add_comm]

lemma utf8ByteSize_start (id : TaskId) (n : Nat) : (id.start n).utf8ByteSize = min n 36 := by
  have hstart : ∀ c ∈ id.chars.take n, isIdChar c = true :=
    fun c hc => (spec_of_mem_chars (List.mem_of_mem_take hc)).1
  rw [start, utf8ByteSize_ofList hstart, List.length_take, length_chars]

/-- A text with a character that is no hexadecimal digit is no id. -/
lemma ofSimple?_of_mem {cs : List Char} {c : Char} (hmem : c ∈ cs) (hc : hexDigit? c = none) :
    ofSimple? cs = none := by
  have hnone : cs.mapM hexDigit? = none := by
    induction cs with
    | nil => exact absurd hmem List.not_mem_nil
    | cons d ds ih =>
      rw [List.mapM_cons]
      rcases List.mem_cons.mp hmem with rfl | hrest
      · rw [hc]
        rfl
      · rw [ih hrest]
        cases hexDigit? d <;> rfl
  unfold ofSimple?
  rw [hnone]
  rfl

/-- A beginning of the written form is no spelling of an identifier. One of 32 characters has hyphens. -/
lemma ofText?_start (id : TaskId) {n : Nat} (h : n < 36) : ofText? (id.start n) = none := by
  have hlength : (id.chars.take n).length = n := by
    rw [List.length_take, length_chars]
    omega
  unfold ofText? start
  rw [String.toList_ofList]
  unfold ofChars?
  rw [hlength]
  split
  · have hhyphen : '-' ∈ id.chars.take 32 := by
      refine List.mem_of_getElem? (i := 8) ?_
      unfold chars
      simp [length_simpleChars]
    exact ofSimple?_of_mem hhyphen (by decide)
  all_goals first | omega | rfl

lemma start_of_le (id : TaskId) {n : Nat} (h : 36 ≤ n) : id.start n = id.text := by
  rw [start, text, List.take_of_length_le]
  rwa [length_chars]

/-- The short form is a beginning of the written form. -/
lemma shortText_eq (id : TaskId) : id.shortText = id.start 8 := by
  have hlength := id.length_simpleChars
  unfold shortText start chars
  simp [hlength]

end TaskSeries.TaskId
