import TaskSeries.DateExpr
import TaskSeries.Proofs.Calendar.Signs
import TaskSeries.Proofs.Period.Grammar

/-!
# Dates with an offset

A date that is followed by a sign and an offset is never a date by itself, because it has a sign too many
(`DateExpr.resolveBase_eq_none`), and it is split at this sign, because an offset has none. So it
stands for the date moved by the period that the offset spells (`DateExpr.resolve_offset`), whatever
signs the date has. A clock that stands at the date and is moved by the offset goes to the same
instant.
-/

namespace TaskSeries.DateExpr

open TaskSeries.Text TaskSeries.Calendar

/-! ## Words -/

lemma isSign_eq_false {c : Char} (h : 65 ≤ c.toNat) : isSign c = false := by
  unfold isSign
  rw [Bool.or_eq_false_iff, beq_eq_false_iff_ne, beq_eq_false_iff_ne]
  constructor
  all_goals
    rintro rfl
    exact absurd h (by decide)

/-- No sign is a letter. -/
lemma isSign_toLower (c : Char) : isSign c.toLower = isSign c := by
  rcases toLower_cases c with hsame | ⟨hge, -, hlower⟩
  · rw [hsame]
  · rw [isSign_eq_false hge, isSign_eq_false (by omega)]

/-- Small letters have the same signs. -/
lemma signs_lowerAscii (cs : List Char) : signs (lowerAscii cs) = signs cs := by
  unfold signs lowerAscii
  rw [List.countP_map]
  exact congrFun (congrArg List.countP (funext isSign_toLower)) cs

/-- No word that stands for a day has a sign. -/
lemma signs_of_wordDay? {word : String} {now : Instant} {day : Option Instant}
    (h : wordDay? word now = some day) : signs word.toList = 0 := by
  rw [wordDay?.eq_def] at h
  split at h
  all_goals try rfl
  obtain ⟨weekday, hname, -⟩ := Option.map_eq_some_iff.mp h
  rw [Weekday.ofName?.eq_def] at hname
  split at hname
  all_goals first
    | rfl
    | exact absurd hname nofun

/-- What is read as a day on its own has no sign, or the signs of a date. -/
lemma signs_of_resolveBase {cs : List Char} {now i : Instant} (h : resolveBase cs now = some i) :
    signs (trimChars cs) = 0 ∨ signs (trimChars cs) = leadingSigns (trimChars cs) + 2 ∨
      signs (trimChars cs) = leadingSigns (trimChars cs) + 3 ∧ Instant.EndsInZone (trimChars cs) := by
  unfold resolveBase at h
  dsimp only at h
  cases hword : wordDay? (String.ofList (lowerAscii (trimChars cs))) now with
  | some day =>
    have hnone := signs_of_wordDay? hword
    rw [String.toList_ofList, signs_lowerAscii] at hnone
    exact Or.inl hnone
  | none =>
    rw [hword] at h
    exact Or.inr (Instant.signs_of_ofUser? h)

/-! ## Trimmed texts -/

lemma leadingSigns_cons {c : Char} (hc : isBlank c = false) (cs : List Char) :
    leadingSigns (c :: cs) = if isSign c then 1 else 0 := by
  unfold leadingSigns skipBlanks
  rw [List.dropWhile_cons_of_neg (by simp [hc])]
  show signs [c] = _
  rw [signs_cons]
  exact Nat.zero_add _

/-- A text that is read as a day is not blank. -/
lemma trimChars_ne_nil {cs : List Char} {now i : Instant} (h : resolveBase cs now = some i) :
    trimChars cs ≠ [] := by
  intro hnil
  unfold resolveBase at h
  rw [hnil] at h
  exact absurd h (by
    show ¬ Instant.ofUser? [] = some i
    intro hempty
    rcases Instant.signs_of_ofUser? hempty with hsigns | ⟨hsigns, -⟩
    · exact absurd hsigns (by decide)
    · exact absurd hsigns (by decide))

/-! ## A sign too many -/

section
variable {base offset : List Char} {sign : Char} {now start : Instant}

lemma rdropWhile_ne_nil (hoffset : ∃ c ∈ offset, isBlank c = false) :
    offset.rdropWhile isBlank ≠ [] := by
  rw [Ne, List.rdropWhile_eq_nil_iff]
  obtain ⟨c, hc, hblank⟩ := hoffset
  exact fun hall => absurd (hblank.symm.trans (hall c hc)) Bool.false_ne_true

/-- A date with an offset is trimmed by trimming the base in front and the offset behind. -/
lemma trimChars_offset (sign : Char) (hbase : skipBlanks base ≠ []) (hoffset : ∃ c ∈ offset, isBlank c = false) :
    trimChars (base ++ sign :: offset) = skipBlanks base ++ sign :: offset.rdropWhile isBlank := by
  have hback := rdropWhile_ne_nil hoffset
  have hfront : skipBlanks (base ++ [sign]) = skipBlanks base ++ [sign] := skipBlanks_append hbase _
  have hne : skipBlanks (base ++ [sign]) ≠ [] := by
    rw [hfront]
    exact List.append_ne_nil_of_right_ne_nil _ (List.cons_ne_nil _ _)
  rw [List.append_cons, trimChars_append hne hback, hfront, ← List.append_cons]

lemma isSign_of_isOffsetChar {c : Char} (h : isOffsetChar c = true) : isSign c = false := by
  unfold isSign
  rw [Bool.or_eq_false_iff, beq_eq_false_iff_ne, beq_eq_false_iff_ne]
  constructor
  all_goals
    rintro rfl
    exact absurd h (by decide)

/-- An offset has no sign, and none of the colons of a zone. -/
lemma not_endsInZone (hsign : isSign sign = true) (hall : ∀ c ∈ offset, isOffsetChar c = true) :
    ¬ Instant.EndsInZone (base ++ sign :: offset) := by
  rintro ⟨front, sign', back, heq, hsign', hback, hcolon⟩
  have hsplit : splitLast isSign (base ++ sign :: offset) = some (base, sign, offset) :=
    splitLast_append hsign fun c hc => isSign_of_isOffsetChar (hall c hc)
  have hsplit' : splitLast isSign (front ++ sign' :: back) = some (front, sign', back) :=
    splitLast_append hsign' (signs_eq_zero_iff.mp hback)
  rw [heq, hsplit'] at hsplit
  have hsame : back = offset := (Prod.mk.inj (Prod.mk.inj (Option.some.inj hsplit)).2).2
  rw [hsame] at hcolon
  exact absurd (hall ':' hcolon) (by decide)

/-- A date with an offset is no date by itself: it has a sign too many. -/
lemma resolveBase_eq_none (hbase : resolveBase base now = some start) (hsign : isSign sign = true)
    (hoffset : ∃ c ∈ offset, isBlank c = false) (hall : ∀ c ∈ offset, isOffsetChar c = true) :
    resolveBase (base ++ sign :: offset) now = none := by
  have hbehind : ∀ c ∈ offset.rdropWhile isBlank, isOffsetChar c = true :=
    fun c hc => hall c ((List.rdropWhile_prefix isBlank offset).mem hc)
  -- the trimmed base without the blanks behind it
  obtain ⟨c, tail, hbare⟩ := List.exists_cons_of_ne_nil (trimChars_ne_nil hbase)
  have hfront : skipBlanks base = c :: (tail ++ (skipBlanks base).rtakeWhile isBlank) := by
    have hsplit := List.rdropWhile_append_rtakeWhile (p := isBlank) (l := skipBlanks base)
    rw [show (skipBlanks base).rdropWhile isBlank = c :: tail from hbare] at hsplit
    exact hsplit.symm
  have hne : skipBlanks base ≠ [] := by
    rw [hfront]
    exact List.cons_ne_nil _ _
  have hc : isBlank c = false := by
    have hhead := List.head_dropWhile_not isBlank hne
    simp only [show base.dropWhile isBlank = _ from hfront, List.head_cons] at hhead
    exact hhead
  have hblanks : signs ((skipBlanks base).rtakeWhile isBlank) = 0 :=
    signs_eq_zero_iff.mpr fun c hc => isSign_of_isBlank (List.mem_rtakeWhile_imp hc)
  have htrim := trimChars_offset sign hne hoffset
  have hcount : signs (trimChars (base ++ sign :: offset)) = signs (c :: tail) + 1 := by
    have hnone : signs (offset.rdropWhile isBlank) = 0 :=
      signs_eq_zero_iff.mpr fun c hc => isSign_of_isOffsetChar (hbehind c hc)
    rw [htrim, signs_append, signs_cons, hnone, hsign, hfront, ← List.cons_append, signs_append,
      hblanks]
    rfl
  have hlead : leadingSigns (trimChars (base ++ sign :: offset)) = leadingSigns (c :: tail) := by
    rw [htrim, hfront, List.cons_append, leadingSigns_cons hc, leadingSigns_cons hc]
  rw [Option.eq_none_iff_forall_ne_some]
  intro i hi
  have hwhole := signs_of_resolveBase hi
  have hbare' := signs_of_resolveBase hbase
  rw [hbare] at hbare'
  rw [hcount, hlead] at hwhole
  rcases hwhole with h | h | ⟨-, hzone⟩
  · omega
  · omega
  · rw [htrim] at hzone
    exact not_endsInZone hsign hbehind hzone

/-- A date with an offset is split at the sign in front of the offset. -/
lemma splitOffset_trimmed (hbase : skipBlanks base ≠ []) (hline : '\n' ∉ base)
    (hsign : isSign sign = true) (hoffset : ∃ c ∈ offset, isBlank c = false)
    (hall : ∀ c ∈ offset, isOffsetChar c = true) :
    splitOffset (trimChars (base ++ sign :: offset)) =
      some (skipBlanks base, sign == '+', offset.rdropWhile isBlank) := by
  have hbehind : ∀ c ∈ offset.rdropWhile isBlank, isOffsetChar c = true :=
    fun c hc => hall c ((List.rdropWhile_prefix isBlank offset).mem hc)
  have hsplit : splitLast (fun c => c == '+' || c == '-')
      (skipBlanks base ++ sign :: offset.rdropWhile isBlank) =
      some (skipBlanks base, sign, offset.rdropWhile isBlank) :=
    splitLast_append hsign fun c hc => isSign_of_isOffsetChar (hbehind c hc)
  have hline' : '\n' ∉ skipBlanks base := fun h => hline ((List.dropWhile_suffix isBlank).mem h)
  have hback : offset.rdropWhile isBlank ≠ [] := rdropWhile_ne_nil hoffset
  unfold splitOffset
  rw [trimChars_offset sign hbase hoffset, hsplit]
  simp [hbase, hline', hback, List.all_eq_true.mpr hbehind]

end

/-! ## Moving a date -/

/-- What a date that is moved by an offset resolves to. A failure to move it names the expression. -/
def movedBy (start : Instant) (forward : Bool) (offset expr : String) : Except Fault Instant :=
  match Period.parse offset with
  | .error cause => .error (.period cause)
  | .ok p =>
    match p.shift forward start with
    | some moved => .ok moved
    | none => .error (.invalidDate expr)

/-- Only a failure depends on the expression. -/
lemma movedBy_eq_ok_iff {start moved : Instant} {forward : Bool} {offset expr : String} :
    movedBy start forward offset expr = .ok moved ↔
      ∃ p, Period.parse offset = .ok p ∧ p.shift forward start = some moved := by
  unfold movedBy
  cases Period.parse offset with
  | error cause => exact ⟨nofun, fun ⟨_, h, _⟩ => nomatch h⟩
  | ok p =>
    dsimp only
    cases hshift : p.shift forward start with
    | none =>
      refine ⟨nofun, fun ⟨q, hq, h⟩ => ?_⟩
      rw [← Except.ok.inj hq, hshift] at h
      exact absurd h nofun
    | some i =>
      constructor
      · intro h
        rw [← Except.ok.inj h]
        exact ⟨p, rfl, hshift⟩
      · rintro ⟨q, hq, h⟩
        rw [← Except.ok.inj hq, hshift] at h
        exact congrArg Except.ok (Option.some.inj h)

/-- What a clock shows after it was to be moved by an offset: it stays when the offset is refused. -/
def clockAfter (offset : String) (now : Instant) : Instant :=
  match moveBy offset now with
  | .ok moved => moved
  | .error _ => now

/-- The sign in front of an offset. -/
def signText (forward : Bool) : String := if forward then "+" else "-"

/-- Blanks behind an offset do not matter. -/
lemma parse_rdropWhile (offset : String) :
    Period.parse (String.ofList (offset.toList.rdropWhile isBlank)) = Period.parse offset := by
  unfold Period.parse
  rw [String.toList_ofList, trimChars_rdropWhile]

/-- Blanks in front of a date do not matter. -/
lemma resolveBase_skipBlanks (base : List Char) (now : Instant) :
    resolveBase (skipBlanks base) now = resolveBase base now := by
  unfold resolveBase
  rw [trimChars_skipBlanks]

/-- The character of the sign. -/
def signChar (forward : Bool) : Char := if forward then '+' else '-'

lemma toList_signText (forward : Bool) (offset : String) :
    (signText forward ++ offset).toList = signChar forward :: offset.toList := by
  cases forward <;> simp [signText, signChar]

lemma isSign_signChar (forward : Bool) : isSign (signChar forward) = true := by
  cases forward <;> rfl

/-- A clock is moved as a date is. -/
lemma moveBy_eq {offset : String} {now : Instant} (forward : Bool)
    (hoffset : ∃ c ∈ offset.toList, isBlank c = false) :
    moveBy (signText forward ++ offset) now =
      movedBy now forward offset (trim (signText forward ++ offset)) := by
  have htrim : trimChars (signText forward ++ offset).toList =
      signChar forward :: offset.toList.rdropWhile isBlank := by
    have hsign : skipBlanks [signChar forward] = [signChar forward] := by
      cases forward <;> rfl
    rw [toList_signText, ← List.singleton_append,
      trimChars_append (by rw [hsign]; exact List.cons_ne_nil _ _) (rdropWhile_ne_nil hoffset), hsign]
    rfl
  have hsplit : splitSign (signChar forward :: offset.toList.rdropWhile isBlank) =
      (forward, offset.toList.rdropWhile isBlank) := by
    cases forward <;> rfl
  unfold moveBy trim
  dsimp only
  rw [htrim, hsplit]
  dsimp only
  rw [parse_rdropWhile]
  rfl

section
variable {base offset : String} {now start : Instant}

/-- A date with an offset resolves to the date moved by the offset. -/
lemma resolve_eq (forward : Bool) (hbase : resolveBase base.toList now = some start)
    (hline : '\n' ∉ base.toList) (hoffset : ∃ c ∈ offset.toList, isBlank c = false)
    (hall : ∀ c ∈ offset.toList, isOffsetChar c = true) :
    resolve (base ++ signText forward ++ offset) now =
      movedBy start forward offset (trim (base ++ signText forward ++ offset)) := by
  have hsign := isSign_signChar forward
  have hexpr : (base ++ signText forward ++ offset).toList =
      base.toList ++ signChar forward :: offset.toList := by
    rw [String.append_assoc, String.toList_append, toList_signText]
  have hfront : skipBlanks base.toList ≠ [] := by
    intro hnil
    have hne := trimChars_ne_nil hbase
    unfold trimChars at hne
    rw [hnil] at hne
    exact hne rfl
  have hnone : resolveBase (trimChars (base.toList ++ signChar forward :: offset.toList)) now = none := by
    have h := resolveBase_eq_none hbase hsign hoffset hall
    unfold resolveBase at h ⊢
    rwa [trimChars_trimChars]
  have hforward : (signChar forward == '+') = forward := by
    cases forward <;> rfl
  unfold resolve resolveTrimmed trim
  dsimp only
  rw [hexpr, hnone, splitOffset_trimmed hfront hline hsign hoffset hall]
  dsimp only
  rw [resolveBase_skipBlanks, hbase, parse_rdropWhile, hforward]
  rfl

/-- A date that is followed by a sign and an offset stands for the date moved by the period that the
offset spells, forward or backward, and it fails as the offset or the move does; in particular a number
without a unit is refused and never taken for a part of the date. A clock that stands at the date is
moved by the offset to the same instant, and stays where it is when the expression fails. -/
theorem resolve_offset (forward : Bool) (hbase : resolveBase base.toList now = some start)
    (hline : '\n' ∉ base.toList) (hoffset : ∃ c ∈ offset.toList, isBlank c = false)
    (hall : ∀ c ∈ offset.toList, isOffsetChar c = true) :
    let expr := base ++ signText forward ++ offset
    resolve expr now = movedBy start forward offset (trim expr) ∧
    (Period.IsNumber (trimChars offset.toList) →
      resolve expr now = .error (.period (.unsupported (trim offset)))) ∧
    (∀ moved, resolve expr now = .ok moved → clockAfter (signText forward ++ offset) start = moved) ∧
    (∀ fault, resolve expr now = .error fault →
      clockAfter (signText forward ++ offset) start = start) := by
  have hresolve := resolve_eq forward hbase hline hoffset hall
  have hclock : ∀ moved, moveBy (signText forward ++ offset) start = .ok moved ↔
      resolve (base ++ signText forward ++ offset) now = .ok moved := by
    intro moved
    rw [hresolve, moveBy_eq forward hoffset, movedBy_eq_ok_iff, movedBy_eq_ok_iff]
  dsimp only
  refine ⟨hresolve, fun hnumber => ?_, fun moved hmoved => ?_, fun fault hfault => ?_⟩
  · rw [hresolve]
    unfold movedBy
    rw [Period.parse_of_isNumber hnumber]
  · unfold clockAfter
    rw [(hclock moved).mpr hmoved]
  · unfold clockAfter
    cases hmove : moveBy (signText forward ++ offset) start with
    | error => rfl
    | ok moved => exact absurd (((hclock moved).mp hmove).symm.trans hfault) nofun

/-- The hyphen in front of an offset is told from those of the date and of its zone, and a number behind
it is refused. -/
theorem resolve_offset_zoned :
    let start : Instant := ⟨1772384400, 0, by decide⟩
    resolveBase "2026-03-01T12:00:00-05:00".toList .epoch = some start ∧
    resolve "2026-03-01T12:00:00-05:00-90min" .epoch = .ok ⟨1772379000, 0, by decide⟩ ∧
    clockAfter "-90min" start = ⟨1772379000, 0, by decide⟩ ∧
    resolve "2026-03-01T12:00:00-05:00-5" .epoch = .error (.period (.unsupported "5")) ∧
    clockAfter "-5" start = start := by
  have hbase : resolveBase "2026-03-01T12:00:00-05:00".toList .epoch =
      some ⟨1772384400, 0, by decide⟩ := by decide +kernel
  have hexpr : "2026-03-01T12:00:00-05:00-90min" =
      "2026-03-01T12:00:00-05:00" ++ signText false ++ "90min" := by decide +kernel
  have hexpr' : "2026-03-01T12:00:00-05:00-5" =
      "2026-03-01T12:00:00-05:00" ++ signText false ++ "5" := by decide +kernel
  have hperiod : Period.parse "90min" = .ok (.exact 5400) := rfl
  have hnumber : Period.IsNumber (trimChars "5".toList) :=
    ⟨['5'], by decide, List.all_eq_true.mp rfl, Or.inl rfl⟩
  obtain ⟨hmoved, -, hclock, -⟩ := @resolve_offset "2026-03-01T12:00:00-05:00" "90min" .epoch _ false
    hbase (by decide) ⟨'9', by decide, by decide⟩ (List.all_eq_true.mp rfl)
  obtain ⟨-, hrefused, -, hstays⟩ := @resolve_offset "2026-03-01T12:00:00-05:00" "5" .epoch _ false
    hbase (by decide) ⟨'5', by decide, by decide⟩ (List.all_eq_true.mp rfl)
  rw [← hexpr] at hmoved hclock
  rw [← hexpr'] at hrefused hstays
  have hresolve := hmoved.trans (movedBy_eq_ok_iff.mpr ⟨_, hperiod, rfl⟩)
  exact ⟨hbase, hresolve, hclock _ hresolve, hrefused hnumber, hstays _ (hrefused hnumber)⟩

end

end TaskSeries.DateExpr
