import Mathlib.Data.List.TakeWhile
import Mathlib.Tactic.Lemma
import Mathlib.Tactic.SplitIfs
import TaskSeries.Calendar.InstantReader
import TaskSeries.Proofs.Text.Characters

/-!
# Signs in a date

Every form of a date has the two hyphens between its year, its month and its day, one sign more if the
year has one, and no further sign, except for that of a zone with a colon behind it
(`Instant.signs_of_ofUser?`). Each reader of a part says what it leaves of a text and how many signs it
has read (`Leaves`), and the readers of the forms add this up.
-/

namespace TaskSeries.Calendar

open TaskSeries.Text

/-- A plus or a hyphen. -/
def isSign (c : Char) : Bool := c == '+' || c == '-'

/-- The number of signs in a text. -/
def signs (cs : List Char) : Nat := cs.countP isSign

/-- The sign in front of the year, if there is one, counted. -/
def leadingSigns (cs : List Char) : Nat := signs ((skipBlanks cs).take 1)

/-- A reader that has read a number of signs leaves the rest of a text. -/
def Leaves (n : Nat) (cs rest : List Char) : Prop :=
  ∃ read, cs = read ++ rest ∧ signs read = n

lemma signs_append (cs ds : List Char) : signs (cs ++ ds) = signs cs + signs ds :=
  List.countP_append

lemma signs_cons (c : Char) (cs : List Char) :
    signs (c :: cs) = signs cs + if isSign c then 1 else 0 :=
  List.countP_cons

/-- A text without signs has no character that is one. -/
lemma signs_eq_zero_iff {cs : List Char} : signs cs = 0 ↔ ∀ c ∈ cs, isSign c = false := by
  unfold signs
  simp only [List.countP_eq_zero, Bool.not_eq_true]

lemma isSign_of_isDigit {c : Char} (h : c.isDigit = true) : isSign c = false := by
  unfold isSign
  rw [Bool.or_eq_false_iff, beq_eq_false_iff_ne, beq_eq_false_iff_ne]
  constructor
  all_goals
    rintro rfl
    exact absurd h (by decide)

lemma isSign_of_isBlank {c : Char} (h : isBlank c = true) : isSign c = false := by
  unfold isSign
  rw [Bool.or_eq_false_iff, beq_eq_false_iff_ne, beq_eq_false_iff_ne]
  constructor
  all_goals
    rintro rfl
    exact absurd h (by decide)

namespace Leaves

variable {m n : Nat} {cs rest rest' : List Char}

lemma refl (cs : List Char) : Leaves 0 cs cs := ⟨[], rfl, rfl⟩

lemma trans (h : Leaves m cs rest) (h' : Leaves n rest rest') : Leaves (m + n) cs rest' := by
  obtain ⟨read, rfl, rfl⟩ := h
  obtain ⟨read', rfl, rfl⟩ := h'
  exact ⟨read ++ read', (List.append_assoc _ _ _).symm, signs_append _ _⟩

/-- The signs of a text are those that are taken off and those of the rest. -/
lemma signs_eq (h : Leaves n cs rest) : signs cs = n + signs rest := by
  obtain ⟨read, rfl, rfl⟩ := h
  exact signs_append _ _

/-- Where nothing is left, all signs are taken off. -/
lemma signs_of_isEmpty (h : Leaves n cs rest) (hempty : rest.isEmpty = true) : signs cs = n := by
  rw [h.signs_eq, List.isEmpty_iff.mp hempty]
  rfl

/-- The reader gives a value with what it leaves. -/
lemma of_some {α : Type} {a b : α} (h : Leaves n cs rest) (heq : some (a, rest) = some (b, rest')) :
    Leaves n cs rest' := by
  rwa [← (Prod.mk.inj (Option.some.inj heq)).2]

/-- Characters that are no signs have been read. -/
lemma of_append {read : List Char} (h : ∀ c ∈ read, isSign c = false) (rest : List Char) :
    Leaves 0 (read ++ rest) rest :=
  ⟨read, rfl, signs_eq_zero_iff.mpr h⟩

lemma cons (c : Char) (cs : List Char) : Leaves (if isSign c then 1 else 0) (c :: cs) cs :=
  ⟨[c], rfl, by rw [signs_cons, signs, List.countP_nil, Nat.zero_add]⟩

lemma skipBlanks (cs : List Char) : Leaves 0 cs (skipBlanks cs) := by
  have hread : ∀ c ∈ cs.takeWhile isBlank, isSign c = false :=
    fun c hc => isSign_of_isBlank (List.mem_takeWhile_imp hc)
  have h := of_append hread (cs.dropWhile isBlank)
  rwa [List.takeWhile_append_dropWhile] at h

lemma dropDigits (cs : List Char) : Leaves 0 cs (cs.dropWhile Char.isDigit) := by
  have hread : ∀ c ∈ cs.takeWhile Char.isDigit, isSign c = false :=
    fun c hc => isSign_of_isDigit (List.mem_takeWhile_imp hc)
  have h := of_append hread (cs.dropWhile Char.isDigit)
  rwa [List.takeWhile_append_dropWhile] at h

lemma takeDigits (width : Nat) (cs : List Char) : Leaves 0 cs (takeDigits width cs).2 := by
  fun_induction Text.takeDigits width cs with
  | case1 cs => exact refl cs
  | case2 => exact refl []
  | case3 width c cs hc ds rest hrest ih =>
    have hsign : Leaves 0 (c :: cs) cs := by
      have h := cons c cs
      rwa [isSign_of_isDigit hc, if_neg Bool.false_ne_true] at h
    rw [hrest] at ih
    exact hsign.trans ih
  | case4 width c cs hc => exact refl _

end Leaves

/-! ## Parts of a date -/

section
variable {n : Nat} {c : Char} {cs rest : List Char}

/-- A character is taken off only if the text begins with it. -/
lemma afterChar_eq_some (h : afterChar c cs = some rest) : cs = c :: rest := by
  unfold afterChar at h
  split at h
  · rename_i c' cs'
    split_ifs at h with hc
    rw [hc, Option.some.inj h]
  · exact absurd h nofun

lemma leaves_afterChar (h : afterChar c cs = some rest) :
    Leaves (if isSign c then 1 else 0) cs rest := by
  rw [afterChar_eq_some h]
  exact .cons c rest

lemma leaves_fixedNumber {width : Nat} (h : fixedNumber width cs = some (n, rest)) :
    Leaves 0 cs rest := by
  have hdigits := Leaves.takeDigits width cs
  unfold fixedNumber at h
  dsimp only at h
  split_ifs at h
  exact hdigits.of_some h

/-- A text that begins with a number of a fixed width begins with no sign. -/
lemma leadingSigns_of_fixedNumber {width : Nat} (h : fixedNumber (width + 1) cs = some (n, rest)) :
    leadingSigns cs = 0 := by
  unfold fixedNumber at h
  dsimp only at h
  split_ifs at h with hlength
  cases cs with
  | nil => rfl
  | cons c cs =>
    have hdigit : c.isDigit = true := by
      by_contra hc
      rw [takeDigits, if_neg hc] at hlength
      exact absurd hlength (Nat.succ_ne_zero width).symm
    have hblank : ¬ isBlank c = true := by
      rw [isBlank_of_isDigit hdigit]
      exact Bool.false_ne_true
    unfold leadingSigns skipBlanks
    rw [List.dropWhile_cons_of_neg hblank]
    show signs [c] = 0
    rw [signs_cons, isSign_of_isDigit hdigit]
    rfl

lemma leaves_looseNumber {width : Nat} (h : looseNumber width cs = some (n, rest)) :
    Leaves 0 cs rest := by
  have hdigits := (Leaves.skipBlanks cs).trans (Leaves.takeDigits width (skipBlanks cs))
  unfold looseNumber at h
  dsimp only at h
  split_ifs at h
  exact hdigits.of_some h

lemma leaves_fraction (h : fraction cs = some (n, rest)) : Leaves 0 cs rest := by
  unfold fraction at h
  split at h
  · rename_i cs
    have hdigits := ((Leaves.cons '.' cs).trans (Leaves.takeDigits 9 cs)).trans (Leaves.dropDigits _)
    dsimp only at h
    split_ifs at h
    exact hdigits.of_some h
  · exact (Leaves.refl cs).of_some h

lemma leaves_afterDateMark (h : afterDateMark cs = some rest) : Leaves 0 cs rest := by
  unfold afterDateMark at h
  split at h
  · rename_i c cs
    split_ifs at h with hc
    rw [← Option.some.inj h]
    have hcons := Leaves.cons c cs
    rcases hc with rfl | rfl | rfl
    all_goals exact hcons
  · exact absurd h nofun

/-- A year is read with the signs that stand in front of it, and no others. -/
lemma leaves_looseYear {y : Int} (h : looseYear cs = some (y, rest)) :
    Leaves (leadingSigns cs) cs rest := by
  have hblanks := Leaves.skipBlanks cs
  unfold looseYear at h
  unfold leadingSigns
  split at h
  · rename_i digits hcs
    rw [hcs] at hblanks ⊢
    have hdigits := (hblanks.trans (.cons '-' digits)).trans (.dropDigits digits)
    dsimp only at h
    split_ifs at h
    exact hdigits.of_some h
  · rename_i digits hcs
    rw [hcs] at hblanks ⊢
    have hdigits := (hblanks.trans (.cons '+' digits)).trans (.dropDigits digits)
    dsimp only at h
    split_ifs at h
    exact hdigits.of_some h
  · rename_i hminus hplus
    obtain ⟨⟨n, rest'⟩, hnumber, hrest⟩ := Option.map_eq_some_iff.mp h
    have hnone : signs ((skipBlanks cs).take 1) = 0 := by
      cases hcs : skipBlanks cs with
      | nil => rfl
      | cons c digits =>
        have hsign : isSign c = false := by
          unfold isSign
          rw [Bool.or_eq_false_iff, beq_eq_false_iff_ne, beq_eq_false_iff_ne]
          exact ⟨fun hc => hplus digits (by rw [hcs, hc]), fun hc => hminus digits (by rw [hcs, hc])⟩
        show signs [c] = 0
        rw [signs_cons, hsign]
        rfl
    rw [hnone]
    exact (hblanks.trans (leaves_looseNumber hnumber)).of_some (congrArg some hrest)

/-- A date with its hyphens and the sign of its year. -/
lemma leaves_takeDate {d : Date} (h : Instant.takeDate id cs = some (d, rest)) :
    Leaves (leadingSigns cs + 2) cs rest := by
  unfold Instant.takeDate at h
  simp only [Option.bind_eq_bind, Option.bind_eq_some_iff, id] at h
  obtain ⟨⟨year, cs₁⟩, hyear, cs₂, hhyphen, ⟨month, cs₃⟩, hmonth, cs₄, hhyphen', ⟨day, cs₅⟩, hday, h⟩ := h
  have hread := ((((leaves_looseYear hyear).trans (leaves_afterChar hhyphen)).trans
    (leaves_looseNumber hmonth)).trans (leaves_afterChar hhyphen')).trans (leaves_looseNumber hday)
  exact hread.of_some h

lemma leaves_takeClock {hour minute : Nat} (h : Instant.takeClock cs = some (hour, minute, rest)) :
    Leaves 0 cs rest := by
  unfold Instant.takeClock at h
  simp only [Option.bind_eq_bind, Option.bind_eq_some_iff] at h
  obtain ⟨⟨hour', cs₁⟩, hhour, cs₂, hcolon, ⟨minute', cs₃⟩, hminute, h⟩ := h
  have hread := ((leaves_looseNumber hhour).trans (leaves_afterChar hcolon)).trans
    (leaves_looseNumber hminute)
  have hrest : cs₃ = rest := (Prod.mk.inj (Prod.mk.inj (Option.some.inj h)).2).2
  rwa [← hrest]

end

/-! ## Forms of a date -/

namespace Instant

variable {cs : List Char} {i : Instant}

/-- A short form has no sign behind its date. -/
lemma signs_of_ofDate? (h : ofDate? cs = some i) : signs cs = leadingSigns cs + 2 := by
  unfold ofDate? at h
  simp only [Option.bind_eq_bind, Option.bind_eq_some_iff] at h
  obtain ⟨⟨d, rest⟩, hdate, h⟩ := h
  split_ifs at h with hempty
  exact (leaves_takeDate hdate).signs_of_isEmpty hempty

/-- A date with hours and minutes has the two signs inside the date, beside those in front of the year.
-/
lemma signs_of_ofDateMinute? {mark : List Char → Option (List Char)}
    (hmark : ∀ cs rest, mark cs = some rest → Leaves 0 cs rest) (h : ofDateMinute? mark cs = some i) :
    signs cs = leadingSigns cs + 2 := by
  unfold ofDateMinute? at h
  simp only [Option.bind_eq_bind, Option.bind_eq_some_iff] at h
  obtain ⟨⟨d, cs₁⟩, hdate, cs₂, hcs, ⟨hour, minute, rest⟩, hclock, h⟩ := h
  split_ifs at h with hempty
  have hread := ((leaves_takeDate hdate).trans (hmark _ _ hcs)).trans (leaves_takeClock hclock)
  exact hread.signs_of_isEmpty hempty

lemma signs_of_ofDateTime? (h : ofDateTime? cs = some i) : signs cs = leadingSigns cs + 2 := by
  unfold ofDateTime? at h
  simp only [Option.bind_eq_bind, Option.bind_eq_some_iff] at h
  obtain ⟨⟨d, cs₁⟩, hdate, cs₂, hmark, ⟨hour, minute, cs₃⟩, hclock, cs₄, hcolon, ⟨second, rest⟩,
    hsecond, h⟩ := h
  split_ifs at h with hempty
  have hread := ((((leaves_takeDate hdate).trans (leaves_afterChar hmark)).trans
    (leaves_takeClock hclock)).trans (leaves_afterChar hcolon)).trans (leaves_looseNumber hsecond)
  exact hread.signs_of_isEmpty hempty

/-- A text that ends in a zone with a sign: behind the sign there is a colon, and no further sign. -/
def EndsInZone (cs : List Char) : Prop :=
  ∃ front sign back, cs = front ++ sign :: back ∧ isSign sign = true ∧ signs back = 0 ∧ ':' ∈ back

/-- A zone span has a colon and no sign. -/
lemma leaves_zoneSpan {n : Nat} {rest : List Char} (h : zoneSpan (afterChar ':') cs = some (n, rest)) :
    Leaves 0 cs rest ∧ ':' ∈ cs := by
  unfold zoneSpan at h
  simp only [Option.bind_eq_bind, Option.bind_eq_some_iff] at h
  obtain ⟨⟨hours, cs₁⟩, hhours, cs₂, hcolon, ⟨minutes, cs₃⟩, hminutes, h⟩ := h
  split_ifs at h
  have hread := (leaves_fixedNumber hhours).trans (leaves_afterChar hcolon)
  refine ⟨(hread.trans (leaves_fixedNumber hminutes)).of_some h, ?_⟩
  obtain ⟨read, hcs, -⟩ := leaves_fixedNumber hhours
  have hcs₁ : cs₁ = ':' :: cs₂ := afterChar_eq_some hcolon
  rw [hcs, hcs₁]
  exact List.mem_append_right _ List.mem_cons_self

/-- A zone at the end of a text has no sign, or is one behind a sign. -/
lemma signs_of_zone {n : Int} (h : zone (afterChar ':') cs = some (n, [])) :
    signs cs = 0 ∨ signs cs = 1 ∧ EndsInZone cs := by
  have hsigned : ∀ {c : Char} {rest : List Char} {m : Nat}, isSign c = true →
      zoneSpan (afterChar ':') rest = some (m, []) →
      signs (c :: rest) = 1 ∧ EndsInZone (c :: rest) := by
    intro c rest m hc hspan
    obtain ⟨hread, hcolon⟩ := leaves_zoneSpan hspan
    have hnone : signs rest = 0 := hread.signs_eq
    refine ⟨?_, [], c, rest, rfl, hc, hnone, hcolon⟩
    rw [signs_cons, hnone, hc]
    rfl
  have hletter : ∀ {c : Char} {rest : List Char} {m : Nat}, isSign c = false →
      zoneSpan (afterChar ':') rest = some (m, []) → signs (c :: rest) = 0 := by
    intro c rest m hc hspan
    rw [signs_cons, hc, (leaves_zoneSpan hspan).1.signs_eq]
    rfl
  unfold zone at h
  split at h
  · rw [(Prod.mk.inj (Option.some.inj h)).2]
    exact Or.inl rfl
  · rw [(Prod.mk.inj (Option.some.inj h)).2]
    exact Or.inl rfl
  · obtain ⟨⟨m, rest⟩, hspan, heq⟩ := Option.map_eq_some_iff.mp h
    rw [(Prod.mk.inj heq).2] at hspan
    exact Or.inr (hsigned rfl hspan)
  · obtain ⟨⟨m, rest⟩, hspan, heq⟩ := Option.map_eq_some_iff.mp h
    rw [(Prod.mk.inj heq).2] at hspan
    exact Or.inr (hsigned rfl hspan)
  · obtain ⟨⟨m, rest⟩, hspan, heq⟩ := Option.map_eq_some_iff.mp h
    rw [(Prod.mk.inj heq).2] at hspan
    exact Or.inl (hletter rfl hspan)
  · exact absurd h nofun

lemma EndsInZone.append {back : List Char} (h : EndsInZone back) (front : List Char) :
    EndsInZone (front ++ back) := by
  obtain ⟨front', sign, rest, rfl, hsign, hnone, hcolon⟩ := h
  exact ⟨front ++ front', sign, rest, (List.append_assoc _ _ _).symm, hsign, hnone, hcolon⟩

/-- The strict form begins with a digit and has no sign besides its hyphens and that of its zone. -/
lemma signs_of_ofRfc3339? (h : ofRfc3339? (String.ofList cs) = some i) :
    leadingSigns cs = 0 ∧ (signs cs = 2 ∨ signs cs = 3 ∧ EndsInZone cs) := by
  unfold ofRfc3339? at h
  rw [String.toList_ofList] at h
  simp only [Option.bind_eq_bind, Option.bind_eq_some_iff] at h
  obtain ⟨⟨year, cs₁⟩, hyear, cs₂, hhyphen, ⟨month, cs₃⟩, hmonth, cs₄, hhyphen', ⟨day, cs₅⟩, hday,
    cs₆, hmark, ⟨hour, cs₇⟩, hhour, cs₈, hcolon, ⟨minute, cs₉⟩, hminute, cs₁₀, hcolon',
    ⟨second, cs₁₁⟩, hsecond, ⟨nano, cs₁₂⟩, hnano, ⟨offset, rest⟩, hzone, h⟩ := h
  split_ifs at h with hempty
  have hdate := (((((leaves_fixedNumber hyear).trans (leaves_afterChar hhyphen)).trans
    (leaves_fixedNumber hmonth)).trans (leaves_afterChar hhyphen')).trans (leaves_fixedNumber hday))
  have hclock := ((((leaves_fixedNumber hhour).trans (leaves_afterChar hcolon)).trans
    (leaves_fixedNumber hminute)).trans (leaves_afterChar hcolon')).trans (leaves_fixedNumber hsecond)
  obtain ⟨front, hcs, hsigns⟩ := ((hdate.trans (leaves_afterDateMark hmark)).trans hclock).trans
    (leaves_fraction hnano)
  have hrest : zone (afterChar ':') cs₁₂ = some (offset, []) := by
    rw [← List.isEmpty_iff.mp hempty]
    exact hzone
  constructor
  · exact leadingSigns_of_fixedNumber hyear
  · rw [hcs, signs_append, hsigns]
    rcases signs_of_zone hrest with hnone | ⟨hone, hends⟩
    · rw [hnone]
      exact Or.inl rfl
    · rw [hone]
      exact Or.inr ⟨rfl, hends.append front⟩

/-- Whatever date a user writes, its signs are the two hyphens and the sign of the year, and there may be
one more in a zone at its end. -/
lemma signs_of_ofUser? (h : ofUser? cs = some i) :
    signs cs = leadingSigns cs + 2 ∨ signs cs = leadingSigns cs + 3 ∧ EndsInZone cs := by
  unfold ofUser? at h
  simp only [Option.orElse_eq_orElse, Option.orElse_eq_or, Option.or_eq_some_iff] at h
  rcases h with h | ⟨-, h | ⟨-, h | ⟨-, h | ⟨-, h⟩⟩⟩⟩
  · obtain ⟨hlead, hsigns⟩ := signs_of_ofRfc3339? h
    rw [hlead]
    exact hsigns
  · exact Or.inl (signs_of_ofDateTime? h)
  · exact Or.inl (signs_of_ofDateMinute? (fun _ _ hmark => leaves_afterChar (c := 'T') hmark) h)
  · refine Or.inl (signs_of_ofDateMinute? (fun cs rest hmark => ?_) h)
    rw [← Option.some.inj hmark]
    exact .skipBlanks cs
  · exact Or.inl (signs_of_ofDate? h)

end Instant

end TaskSeries.Calendar
