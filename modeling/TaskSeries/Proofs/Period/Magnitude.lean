import TaskSeries.Proofs.Period.Grammar
import TaskSeries.Proofs.Text.Ratio

/-!
# Whole magnitudes

A whole number with a unit is read through binary fractions, a literal through whole numbers of 64 bits.
Both come to the same (`Period.parse_whole_eq_literal`): what a fraction with 53 significant bits cannot
hold exactly is far above the longest period, and is not rounded down to it.
-/

namespace TaskSeries.Period

open TaskSeries.Text

/-- A unit that has words and stands in literals: what is in front of its count there, and the designator
behind the count. -/
structure DurationUnit where
  words : List String
  opening : String
  designator : String
  seconds : Nat

/-- The units that magnitudes and literals have in common. Quarters have no designator. -/
def durationUnits : List DurationUnit :=
  [⟨["s", "sec", "secs", "second", "seconds"], "PT", "S", 1⟩,
    ⟨["min", "mins", "minute", "minutes"], "PT", "M", 60⟩,
    ⟨["h", "hr", "hrs", "hour", "hours"], "PT", "H", 3600⟩,
    ⟨["d", "day", "days"], "P", "D", 86400⟩,
    ⟨["w", "wk", "wks", "week", "weeks"], "P", "W", 7 * 86400⟩,
    ⟨["mo", "mth", "mths", "month", "months"], "P", "M", 30 * 86400⟩,
    ⟨["y", "yr", "yrs", "year", "years"], "P", "Y", 365 * 86400⟩]

/-- Two readings give the same period, or are refused for the same cause. -/
inductive SameOutcome : Except PeriodError Period → Except PeriodError Period → Prop
  | ok (p : Period) : SameOutcome (.ok p) (.ok p)
  | unsupported (s t : String) : SameOutcome (.error (.unsupported s)) (.error (.unsupported t))
  | zeroDuration (s t : String) : SameOutcome (.error (.zeroDuration s)) (.error (.zeroDuration t))
  | unrecognized (s t : String) : SameOutcome (.error (.unrecognized s)) (.error (.unrecognized t))

/-- The same seconds end in the same way, whatever text named them. -/
lemma sameOutcome_ofSeconds (s t : String) (seconds : Nat) :
    SameOutcome (ofSeconds s seconds) (ofSeconds t seconds) := by
  unfold ofSeconds
  split_ifs
  · exact .zeroDuration s t
  · exact .ok _
  · exact .unrecognized s t

section
variable {ds tail : List Char} {c d : Char} {units : List (Char × Nat)} {n word : String}
  {seconds : Nat}

/-! ## The way through binary fractions -/

/-- One of the letters from a to z. -/
def IsSmallLetter (c : Char) : Prop :=
  97 ≤ c.toNat ∧ c.toNat ≤ 122

instance (c : Char) : Decidable (IsSmallLetter c) :=
  inferInstanceAs (Decidable (_ ∧ _))

namespace IsSmallLetter

lemma isDigit_eq_false (h : IsSmallLetter c) : c.isDigit = false := by
  rw [Bool.eq_false_iff]
  intro hdigit
  have hle : c.toNat ≤ 57 := UInt32.le_iff_toNat_le.mp (val_le_of_isDigit hdigit).2
  exact absurd h.1 (by omega)

lemma ne_point (h : IsSmallLetter c) : c ≠ '.' := by
  rintro rfl
  exact absurd h (by decide)

lemma isAsciiSpace_eq_false (h : IsSmallLetter c) : isAsciiSpace c = false := by
  obtain ⟨hge, -⟩ := h
  have hspace : c ≠ ' ' := by
    rintro rfl
    exact absurd hge (by decide)
  simp only [isAsciiSpace, Bool.or_eq_false_iff, Bool.and_eq_false_iff, decide_eq_false_iff_not,
    beq_eq_false_iff_ne]
  exact ⟨by omega, hspace⟩

lemma isBlank_eq_false (h : IsSmallLetter c) : isBlank c = false := by
  obtain ⟨hge, hle⟩ := h
  exact Text.isBlank_eq_false (by omega) (by omega)

lemma toLower_eq (h : IsSmallLetter c) : c.toLower = c := by
  obtain ⟨hge, -⟩ := h
  rcases toLower_cases c with hsame | ⟨-, hle, -⟩
  · exact hsame
  · omega

end IsSmallLetter

/-- A whole number is taken up to what is no digit and no point. -/
lemma takeNumber_whole (hds : ∀ c ∈ ds, c.isDigit = true)
    (hc : c.isDigit = false) (hpoint : c ≠ '.') : takeNumber (ds ++ c :: tail) = (ds, [], c :: tail) := by
  unfold takeNumber
  rw [takeWhile_digits hds hc, dropWhile_digits hds hc]
  dsimp only
  split
  · next heq =>
    rw [List.cons.injEq] at heq
    exact absurd heq.1 hpoint
  · rfl

/-- The words for units are made of small letters. -/
lemma unitWords_letters (hword : word ∈ unitWords) :
    (∃ c tail, word.toList = c :: tail) ∧ ∀ c ∈ word.toList, IsSmallLetter c := by
  have hne : ∀ word ∈ unitWords, word.toList ≠ [] := by decide
  have hletters : (unitWords.flatMap String.toList).all (IsSmallLetter ·) = true := by decide
  refine ⟨List.exists_cons_of_ne_nil (hne word hword), fun c hc => ?_⟩
  exact of_decide_eq_true (List.all_eq_true.mp hletters c (List.mem_flatMap_of_mem hword hc))

lemma one_le_unitSeconds? (h : unitSeconds? word = some seconds) : 1 ≤ seconds := by
  rw [unitSeconds?.eq_def] at h
  split at h
  all_goals cases h
  all_goals decide

/-- The seconds of a whole number with a unit are exact, unless they are too many. -/
lemma magnitudeSeconds?_whole (hds : IsDigits ds) (hword : unitSeconds? word = some seconds) :
    magnitudeSeconds? (ds ++ word.toList) =
      if natOfDigits ds * seconds ≤ longest then some (natOfDigits ds * seconds) else none := by
  have hseconds := one_le_unitSeconds? hword
  obtain ⟨⟨c, tail, htoList⟩, hletters⟩ := unitWords_letters (mem_unitWords hword)
  have hc := hletters c (by rw [htoList]; exact List.mem_cons_self)
  have htaken : takeNumber (ds ++ word.toList) = (ds, [], word.toList) := by
    rw [htoList]
    exact takeNumber_whole hds.2 hc.isDigit_eq_false hc.ne_point
  have hspace : word.toList.dropWhile isAsciiSpace = word.toList := by
    rw [htoList]
    exact List.dropWhile_cons_of_neg (by simp [hc.isAsciiSpace_eq_false])
  have hbind : magnitudeSeconds? (ds ++ word.toList) =
      ((Ratio.ofDecimal? (natOfDigits ds) 0 0).bind (Ratio.scale? seconds)).bind fun product =>
        if product.roundHalfUp ≤ longest then some product.roundHalfUp else none := by
    unfold magnitudeSeconds?
    simp only [htaken, hspace, String.ofList_toList, hword, List.isEmpty_iff, hds.1, if_false,
      Option.bind_eq_bind, Option.bind_some, Option.bind_assoc]
    rfl
  have hlongest : longest < 2 ^ 53 := by decide
  rw [hbind]
  by_cases hheld : natOfDigits ds * seconds < 2 ^ 53
  · obtain ⟨product, hproduct, hround⟩ := Ratio.scale?_ofDecimal?_whole hseconds hheld
    rw [hproduct, Option.bind_some, hround]
  · -- what is rounded beyond 53 bits is too long before and after
    rw [if_neg (by omega), Option.eq_none_iff_forall_ne_some]
    intro m hm
    obtain ⟨product, hproduct, hm⟩ := Option.bind_eq_some_iff.mp hm
    have hlarge := Ratio.le_scale?_ofDecimal?_whole hseconds (Nat.le_of_not_lt hheld) hproduct
    rw [Option.ite_none_right_eq_some] at hm
    omega

/-! ## Both forms of a token -/

/-- A whole number with a unit is read as so many seconds. -/
lemma parse_whole (hn : IsDigits n.toList) (hword : unitSeconds? word = some seconds) :
    parse (n ++ word) = ofSeconds (n ++ word) (natOfDigits n.toList * seconds) := by
  obtain ⟨⟨c, tail, htoList⟩, hletters⟩ := unitWords_letters (mem_unitWords hword)
  have hc := hletters c (by rw [htoList]; exact List.mem_cons_self)
  have hblank : ∀ c ∈ (n ++ word).toList, isBlank c = false := by
    intro c hc
    rw [String.toList_append, List.mem_append] at hc
    exact hc.elim (fun hc => isBlank_of_isDigit (hn.2 c hc)) fun hc => (hletters c hc).isBlank_eq_false
  have hsmall : lowerAscii word.toList = word.toList :=
    (List.map_congr_left fun c hc => (hletters c hc).toLower_eq).trans (List.map_id _)
  have hlower : lowerAscii (trimChars (n ++ word).toList) = n.toList ++ word.toList := by
    rw [trimChars_eq_self hblank, String.toList_append, lowerAscii_append, lowerAscii_of_digits hn.2,
      hsmall]
  obtain ⟨digit, digits, hdigits⟩ := List.exists_cons_of_ne_nil hn.1
  have hdigit : digit.isDigit = true := hn.2 digit (by rw [hdigits]; exact List.mem_cons_self)
  have hparse : parse (n ++ word) = ofSeconds (trim (n ++ word)) (natOfDigits n.toList * seconds) := by
    refine parse_eq_ofSeconds ?_ ?_ ?_
    · rw [hlower, hdigits]
      exact ofName?_of_isDigit hdigit _
    · have htaken : takeNumber (n.toList ++ c :: tail) = (n.toList, [], c :: tail) :=
        takeNumber_whole hn.2 hc.isDigit_eq_false hc.ne_point
      rw [hlower, isBareNumber, htoList, htaken]
      simp
    · have hhead : (n.toList ++ word.toList).head? ≠ some 'p' := by
        rw [hdigits]
        intro heq
        rw [Option.some.inj heq] at hdigit
        exact absurd hdigit (by decide)
      rw [hlower, exactSeconds?_of_head hhead]
      exact magnitudeSeconds?_whole hn hword
  rwa [trim_eq_self hblank] at hparse

/-- A literal with one component is read as so many seconds. -/
lemma parse_literal (hn : IsDigits n.toList) {unit : DurationUnit} (hunit : unit ∈ durationUnits) :
    parse (unit.opening ++ n ++ unit.designator) =
      ofSeconds (unit.opening ++ n ++ unit.designator) (natOfDigits n.toList * unit.seconds) := by
  have hall : (durationUnits.flatMap fun unit => unit.opening.toList ++ unit.designator.toList).all
      (fun c => !isBlank c) = true := by decide
  have hsigns : ∀ c ∈ unit.opening.toList ++ unit.designator.toList, isBlank c = false := by
    intro c hc
    have hc := List.all_eq_true.mp hall c (List.mem_flatMap_of_mem hunit hc)
    simpa using hc
  have hblank : ∀ c ∈ (unit.opening ++ n ++ unit.designator).toList, isBlank c = false := by
    intro c hc
    rw [String.toList_append, String.toList_append, List.mem_append, List.mem_append] at hc
    rcases hc with (hc | hc) | hc
    · exact hsigns c (List.mem_append_left _ hc)
    · exact isBlank_of_isDigit (hn.2 c hc)
    · exact hsigns c (List.mem_append_right _ hc)
  have hlower : lowerAscii (trimChars (unit.opening ++ n ++ unit.designator).toList) =
      lowerAscii unit.opening.toList ++ (n.toList ++ lowerAscii unit.designator.toList) := by
    rw [trimChars_eq_self hblank, String.toList_append, String.toList_append, lowerAscii_append,
      lowerAscii_append, lowerAscii_of_digits hn.2, List.append_assoc]
  -- the component is one of the date, or one of the time behind a `t`
  have hforms : ∀ unit ∈ durationUnits, ∃ d,
      lowerAscii unit.designator.toList = [d] ∧
        (lowerAscii unit.opening.toList = ['p'] ∧ (d, unit.seconds) ∈ dateComponents ∨
          lowerAscii unit.opening.toList = ['p', 't'] ∧ (d, unit.seconds) ∈ timeComponents) := by
    intro unit hunit
    simp only [durationUnits, List.mem_cons, List.not_mem_nil, or_false] at hunit
    rcases hunit with rfl | rfl | rfl | rfl | rfl | rfl | rfl
    all_goals exact ⟨_, rfl, by decide⟩
  have hparse : parse (unit.opening ++ n ++ unit.designator) =
      ofSeconds (trim (unit.opening ++ n ++ unit.designator)) (natOfDigits n.toList * unit.seconds) := by
    obtain ⟨d, hdesignator, ⟨hopening, hmem⟩ | ⟨hopening, hmem⟩⟩ := hforms unit hunit
    · have hduration := Duration.date (components_single hmem hn) nofun
      rw [hopening, hdesignator] at hlower
      exact parse_of_duration hlower hduration
    · have hduration := Duration.time (components_nil dateComponents) (components_single hmem hn) nofun
      rw [hopening, hdesignator] at hlower
      rw [weight_nil, Nat.zero_add] at hduration
      exact parse_of_duration hlower hduration
  rwa [trim_eq_self hblank] at hparse

/-- A whole number with a unit is as many seconds as the product, or is refused as zero or as too long;
and the literal with the same count and unit comes to the same. -/
theorem parse_whole_eq_literal (n : String) (hn : IsDigits n.toList) :
    (∀ word seconds, unitSeconds? word = some seconds →
      parse (n ++ word) = ofSeconds (n ++ word) (natOfDigits n.toList * seconds)) ∧
    ∀ unit ∈ durationUnits, ∀ word ∈ unit.words,
      unitSeconds? word = some unit.seconds ∧
        SameOutcome (parse (n ++ word)) (parse (unit.opening ++ n ++ unit.designator)) := by
  have hwords : ∀ unit ∈ durationUnits, ∀ word ∈ unit.words,
      unitSeconds? word = some unit.seconds := by decide
  refine ⟨fun word seconds => parse_whole hn, fun unit hunit word hword => ?_⟩
  have hseconds := hwords unit hunit word hword
  refine ⟨hseconds, ?_⟩
  rw [parse_whole hn hseconds, parse_literal hn hunit]
  exact sameOutcome_ofSeconds _ _ _

/-- Twelve minutes with zeros in front, more hours than 64 bits can hold, and no days at all: in both
forms a period, too long and zero. -/
theorem parse_whole_eq_literal_limits :
    (IsDigits "0012".toList ∧ IsDigits "99999999999999999999".toList ∧ IsDigits "00".toList) ∧
    parse "0012min" = .ok (exact 720) ∧ SameOutcome (parse "0012min") (parse "PT0012M") ∧
    parse "99999999999999999999hours" = .error (.unrecognized "99999999999999999999hours") ∧
    SameOutcome (parse "99999999999999999999hours") (parse "PT99999999999999999999H") ∧
    parse "00d" = .error (.zeroDuration "00d") ∧ SameOutcome (parse "00d") (parse "P00D") := by
  have htwelve : IsDigits "0012".toList := ⟨by decide, List.all_eq_true.mp rfl⟩
  have hmany : IsDigits "99999999999999999999".toList := ⟨by decide, List.all_eq_true.mp rfl⟩
  have hnone : IsDigits "00".toList := ⟨by decide, List.all_eq_true.mp rfl⟩
  obtain ⟨hminutes, hminutes'⟩ := parse_whole_eq_literal _ htwelve
  obtain ⟨hhours, hhours'⟩ := parse_whole_eq_literal _ hmany
  obtain ⟨hdays, hdays'⟩ := parse_whole_eq_literal _ hnone
  have hminute : ⟨["min", "mins", "minute", "minutes"], "PT", "M", 60⟩ ∈ durationUnits := by
    simp [durationUnits]
  have hhour : ⟨["h", "hr", "hrs", "hour", "hours"], "PT", "H", 3600⟩ ∈ durationUnits := by
    simp [durationUnits]
  have hday : ⟨["d", "day", "days"], "P", "D", 86400⟩ ∈ durationUnits := by simp [durationUnits]
  have hlong : ofSeconds "99999999999999999999hours"
      (natOfDigits "99999999999999999999".toList * 3600) =
        .error (.unrecognized "99999999999999999999hours") := by decide
  have hzero : ofSeconds "00d" (natOfDigits "00".toList * 86400) =
      .error (.zeroDuration "00d") := by decide
  exact ⟨⟨htwelve, hmany, hnone⟩,
    hminutes "min" _ rfl, (hminutes' _ hminute "min" (by decide)).2,
    (hhours "hours" _ rfl).trans hlong, (hhours' _ hhour "hours" (by decide)).2,
    (hdays "d" _ rfl).trans hzero, (hdays' _ hday "d" (by decide)).2⟩

end

end TaskSeries.Period
