import Mathlib.Data.List.DropRight
import Mathlib.Tactic.Lemma
import TaskSeries.Text.Blank
import TaskSeries.Text.Decimal

/-!
# Digits, blanks and letter case

The digits of a number are read as the number they were written for. Both directions work at the last
digit: the reader folds from the left, so a digit more at the end multiplies by ten, and the writer
puts the remainder behind the digits of the quotient. Blanks and letter case do not meet: a text is
trimmed and put into lower case in either order, and what is trimmed already stays as it is
(`Text.trimChars_trimChars`). A text that is put together around a sign is split there again.
-/

namespace TaskSeries.Text

/-! ## Decimal digits -/

lemma digitChar_cases {motive : Char → Nat → Prop}
    (h : ∀ k < 10, motive (Char.ofNat (48 + k)) k) (n : Nat) : motive (digitChar n) (n % 10) :=
  h (n % 10) (Nat.mod_lt n (by decide))

lemma isDigit_digitChar (n : Nat) : (digitChar n).isDigit = true :=
  digitChar_cases (motive := fun c _ => c.isDigit = true) (by decide) n

/-- A digit is worth the number that it was written for. -/
lemma digitValue_digitChar (n : Nat) : digitValue (digitChar n) = n % 10 :=
  digitChar_cases (motive := fun c k => digitValue c = k) (by decide) n

/-- One more digit makes ten times the number, and the digit. -/
lemma natOfDigits_append_one (ds : List Char) (d : Char) :
    natOfDigits (ds ++ [d]) = 10 * natOfDigits ds + digitValue d := by
  simp [natOfDigits, List.foldl_append]

lemma digitsOfNat_ne_nil (n : Nat) : digitsOfNat n ≠ [] := by
  rw [digitsOfNat]
  split <;> simp

/-- Only digits are written. -/
lemma all_isDigit_digitsOfNat (n : Nat) : ∀ c ∈ digitsOfNat n, c.isDigit = true := by
  induction n using digitsOfNat.induct with
  | case1 n h =>
    rw [digitsOfNat, dif_pos h]
    simp [isDigit_digitChar]
  | case2 n h ih =>
    rw [digitsOfNat, dif_neg h]
    intro c hc
    rcases List.mem_append.mp hc with hc | hc
    · exact ih c hc
    · rw [List.mem_singleton.mp hc]
      exact isDigit_digitChar n

/-- The digits of a number are read as that number. -/
theorem natOfDigits_digitsOfNat (n : Nat) : natOfDigits (digitsOfNat n) = n := by
  induction n using digitsOfNat.induct with
  | case1 n h =>
    have hzero : natOfDigits [] = 0 := rfl
    rw [digitsOfNat, dif_pos h, ← List.nil_append [digitChar n], natOfDigits_append_one,
      digitValue_digitChar, hzero]
    omega
  | case2 n h ih =>
    rw [digitsOfNat, dif_neg h, natOfDigits_append_one, ih, digitValue_digitChar]
    exact Nat.div_add_mod n 10

/-! ## Lower case -/

lemma val_le_of_isDigit {c : Char} (h : c.isDigit = true) : 48 ≤ c.val ∧ c.val ≤ 57 := by
  simpa [Char.isDigit] using h

/-- Digits have no upper case. -/
lemma toLower_of_isDigit {c : Char} (h : c.isDigit = true) : c.toLower = c := by
  have hupper : ¬ (c.val ≥ 'A'.val ∧ c.val ≤ 'Z'.val) := by
    rintro ⟨hge, -⟩
    exact absurd (UInt32.le_trans hge (val_le_of_isDigit h).2) (by decide)
  exact dif_neg hupper

/-- Folding to lower case moves the letters A to Z by 32 code points and leaves all other characters. -/
lemma toLower_cases (c : Char) :
    c.toLower = c ∨ 65 ≤ c.toNat ∧ c.toNat ≤ 90 ∧ c.toLower.toNat = c.toNat + 32 := by
  unfold Char.toLower
  split
  · next h =>
    have hge : 65 ≤ c.toNat := UInt32.le_iff_toNat_le.mp h.1
    have hle : c.toNat ≤ 90 := UInt32.le_iff_toNat_le.mp h.2
    have hadd : (c.val + ('a'.val - 'A'.val)).toNat = (c.toNat + 32) % 2 ^ 32 := UInt32.toNat_add _ _
    refine Or.inr ⟨hge, hle, ?_⟩
    show (c.val + ('a'.val - 'A'.val)).toNat = c.toNat + 32
    omega
  · exact Or.inl rfl

lemma lowerAscii_append (cs ds : List Char) :
    lowerAscii (cs ++ ds) = lowerAscii cs ++ lowerAscii ds :=
  List.map_append

lemma lowerAscii_of_digits {cs : List Char} (h : ∀ c ∈ cs, c.isDigit = true) :
    lowerAscii cs = cs :=
  (List.map_congr_left fun c hc => toLower_of_isDigit (h c hc)).trans (List.map_id _)

lemma lowerAscii_digitsOfNat (n : Nat) : lowerAscii (digitsOfNat n) = digitsOfNat n :=
  lowerAscii_of_digits (all_isDigit_digitsOfNat n)

/-! ## Blanks -/

lemma isBlank_eq_false {c : Char} (h : 32 < c.toNat) (h' : c.toNat < 128) : isBlank c = false := by
  simp only [isBlank, Bool.or_eq_false_iff, Bool.and_eq_false_iff, decide_eq_false_iff_not,
    beq_eq_false_iff_ne]
  omega

lemma isBlank_of_isDigit {c : Char} (h : c.isDigit = true) : isBlank c = false := by
  obtain ⟨hge, hle⟩ := val_le_of_isDigit h
  rw [UInt32.le_iff_toNat_le] at hge hle
  exact isBlank_eq_false (Nat.lt_of_lt_of_le (by decide) hge) (Nat.lt_of_le_of_lt hle (by decide))

/-- No blank is a letter. -/
lemma isBlank_toLower (c : Char) : isBlank c.toLower = isBlank c := by
  rcases toLower_cases c with hsame | ⟨hge, hle, hlower⟩
  · rw [hsame]
  · rw [isBlank_eq_false (c := c) (by omega) (by omega)]
    exact isBlank_eq_false (by omega) (by omega)

lemma skipBlanks_lowerAscii (cs : List Char) :
    skipBlanks (lowerAscii cs) = lowerAscii (skipBlanks cs) := by
  have hcomp : isBlank ∘ Char.toLower = isBlank := funext isBlank_toLower
  rw [skipBlanks, lowerAscii, List.dropWhile_map, hcomp]
  rfl

/-- It does not matter whether a text is trimmed before its letters are made small. -/
lemma trimChars_lowerAscii (cs : List Char) :
    trimChars (lowerAscii cs) = lowerAscii (trimChars cs) := by
  have hreverse : ∀ ds, (lowerAscii ds).reverse = lowerAscii ds.reverse := fun ds =>
    List.map_reverse.symm
  rw [trimChars, trimChars, skipBlanks_lowerAscii, hreverse, skipBlanks_lowerAscii, hreverse]

lemma skipBlanks_eq_self {cs : List Char} (h : ∀ c ∈ cs, isBlank c = false) :
    skipBlanks cs = cs := by
  cases cs with
  | nil => rfl
  | cons c cs =>
    rw [skipBlanks, List.dropWhile_cons_of_neg (by simp [h c List.mem_cons_self])]

lemma trimChars_eq_self {cs : List Char} (h : ∀ c ∈ cs, isBlank c = false) :
    trimChars cs = cs := by
  have hreverse : ∀ c ∈ cs.reverse, isBlank c = false := fun c hc => h c (List.mem_reverse.mp hc)
  rw [trimChars, skipBlanks_eq_self h, skipBlanks_eq_self hreverse, List.reverse_reverse]

lemma trim_eq_self {s : String} (h : ∀ c ∈ s.toList, isBlank c = false) : trim s = s := by
  rw [trim, trimChars_eq_self h, String.ofList_toList]

/-- A text that is not blank keeps its blanks behind when those in front are dropped, and so does what
follows it. -/
lemma skipBlanks_append {cs : List Char} (h : skipBlanks cs ≠ []) (ds : List Char) :
    skipBlanks (cs ++ ds) = skipBlanks cs ++ ds := by
  unfold skipBlanks at h ⊢
  rw [List.dropWhile_append, if_neg]
  rwa [List.isEmpty_iff]

/-- A text is trimmed by dropping blanks in front of its beginning and behind its end. -/
lemma trimChars_append {cs ds : List Char} (hcs : skipBlanks cs ≠ [])
    (hds : ds.rdropWhile isBlank ≠ []) :
    trimChars (cs ++ ds) = skipBlanks cs ++ ds.rdropWhile isBlank := by
  have hreverse : skipBlanks ds.reverse ≠ [] := by
    unfold List.rdropWhile at hds
    exact fun h => hds (congrArg List.reverse h)
  unfold trimChars
  rw [skipBlanks_append hcs, List.reverse_append, skipBlanks_append hreverse, List.reverse_append,
    List.reverse_reverse]
  rfl

/-- Trimming skips the blanks in front anyway. -/
lemma trimChars_skipBlanks (cs : List Char) : trimChars (skipBlanks cs) = trimChars cs := by
  unfold trimChars skipBlanks
  rw [List.dropWhile_idempotent]

/-- Trimming drops the blanks behind anyway. -/
lemma trimChars_rdropWhile (cs : List Char) : trimChars (cs.rdropWhile isBlank) = trimChars cs := by
  show (skipBlanks (cs.rdropWhile isBlank)).rdropWhile isBlank = (skipBlanks cs).rdropWhile isBlank
  have hbehind : ∀ c ∈ cs.rtakeWhile isBlank, isBlank c = true := fun c => List.mem_rtakeWhile_imp
  have hsplit := List.rdropWhile_append_rtakeWhile (p := isBlank) (l := cs)
  by_cases hblank : skipBlanks (cs.rdropWhile isBlank) = []
  · -- nothing but blanks: both sides are empty
    have hall : skipBlanks cs = [] := by
      unfold skipBlanks at hblank ⊢
      rw [List.dropWhile_eq_nil_iff] at hblank ⊢
      rw [← hsplit]
      exact fun c hc => (List.mem_append.mp hc).elim (hblank c) (hbehind c)
    rw [hblank, hall]
  · have hskip : skipBlanks cs = skipBlanks (cs.rdropWhile isBlank) ++ cs.rtakeWhile isBlank := by
      rw [← skipBlanks_append hblank, hsplit]
    rw [hskip]
    unfold List.rdropWhile at *
    rw [List.reverse_append, List.dropWhile_append_of_pos]
    exact fun c hc => hbehind c (List.mem_reverse.mp hc)

lemma trimChars_trimChars (cs : List Char) : trimChars (trimChars cs) = trimChars cs :=
  (trimChars_rdropWhile (skipBlanks cs)).trans (trimChars_skipBlanks cs)

/-- Trimming twice is trimming once. -/
lemma trim_trim (s : String) : trim (trim s) = trim s := by
  unfold trim
  rw [String.toList_ofList, trimChars_trimChars]

/-- A text has nothing but blanks. -/
def Blank (s : String) : Prop := ∀ c ∈ s.toList, isBlank c = true

instance (s : String) : Decidable (Blank s) :=
  decidable_of_iff (s.toList.all isBlank = true) List.all_eq_true

/-- Blanks around a text are trimmed away. -/
lemma trimChars_blanks {before behind cs : List Char} (hbefore : ∀ c ∈ before, isBlank c = true)
    (hbehind : ∀ c ∈ behind, isBlank c = true) : trimChars (before ++ cs ++ behind) = trimChars cs := by
  have hfront : skipBlanks (before ++ cs) = skipBlanks cs := List.dropWhile_append_of_pos hbefore
  have hback : (before ++ cs ++ behind).rdropWhile isBlank = (before ++ cs).rdropWhile isBlank := by
    unfold List.rdropWhile
    rw [List.reverse_append, List.dropWhile_append_of_pos]
    exact fun c hc => hbehind c (List.mem_reverse.mp hc)
  rw [← trimChars_rdropWhile, hback, trimChars_rdropWhile, ← trimChars_skipBlanks, hfront,
    trimChars_skipBlanks]

/-- A text is what trimming leaves of it, with blanks around it. -/
lemma exists_blanks (s : String) :
    ∃ before behind, Blank before ∧ Blank behind ∧ before ++ trim s ++ behind = s := by
  refine ⟨String.ofList (s.toList.takeWhile isBlank),
    String.ofList ((skipBlanks s.toList).rtakeWhile isBlank), ?_, ?_, ?_⟩
  · intro c hc
    rw [String.toList_ofList] at hc
    exact List.mem_takeWhile_imp hc
  · intro c hc
    rw [String.toList_ofList] at hc
    exact List.mem_rtakeWhile_imp hc
  · have hbehind : trimChars s.toList ++ (skipBlanks s.toList).rtakeWhile isBlank =
        s.toList.dropWhile isBlank := List.rdropWhile_append_rtakeWhile
    rw [trim, ← String.ofList_append, ← String.ofList_append, List.append_assoc, hbehind,
      List.takeWhile_append_dropWhile, String.ofList_toList]

/-- Blanks around a text are trimmed. -/
lemma trim_blanks {before behind text : String} (hbefore : Blank before) (hbehind : Blank behind) :
    trim (before ++ text ++ behind) = trim text := by
  unfold trim
  rw [String.toList_append, String.toList_append, trimChars_blanks hbefore hbehind]

/-! ## Splitting -/

/-- What stands behind a beginning is found. -/
lemma afterStart_append {α : Type} [DecidableEq α] (start rest : List α) :
    afterStart start (start ++ rest) = some rest := by
  induction start with
  | nil => rfl
  | cons a start ih =>
    rw [List.cons_append, afterStart, if_pos rfl]
    exact ih

/-- A text is split at the first of the characters that a property singles out. -/
lemma splitFirst_append {p : Char → Bool} {c : Char} {cs ds : List Char} (hc : p c = true)
    (hcs : ∀ d ∈ cs, p d = false) : splitFirst p (cs ++ c :: ds) = some (cs, ds) := by
  have hnot : ∀ d ∈ cs, (!p d) = true := by
    intro d hd
    rw [hcs d hd]
    rfl
  unfold splitFirst
  rw [List.dropWhile_append_of_pos hnot, List.takeWhile_append_of_pos hnot,
    List.dropWhile_cons_of_neg (by simp [hc]), List.takeWhile_cons_of_neg (by simp [hc])]
  simp

/-- A text is split at the last of the characters that a property singles out. -/
lemma splitLast_append {p : Char → Bool} {c : Char} {cs ds : List Char} (hc : p c = true)
    (hds : ∀ d ∈ ds, p d = false) : splitLast p (cs ++ c :: ds) = some (cs, c, ds) := by
  have hreverse : (cs ++ c :: ds).reverse = ds.reverse ++ c :: cs.reverse := by simp
  have hnot : ∀ d ∈ ds.reverse, (!p d) = true := by
    intro d hd
    rw [hds d (List.mem_reverse.mp hd)]
    rfl
  unfold splitLast
  rw [hreverse, List.dropWhile_append_of_pos hnot, List.takeWhile_append_of_pos hnot,
    List.dropWhile_cons_of_neg (by simp [hc]), List.takeWhile_cons_of_neg (by simp [hc])]
  simp

end TaskSeries.Text
