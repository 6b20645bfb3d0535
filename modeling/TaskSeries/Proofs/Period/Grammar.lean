import TaskSeries.Proofs.Period.RoundTrip

/-!
# What the reader of periods accepts

A number without a unit is refused as such, with whatever blanks around it
(`Period.parse_of_isNumber`). A token that begins with a `p` is read when the rest of it is a duration
from one second to the longest one, and everything else only as a name or as a number with a unit
(`Period.parse_by_form`).
-/

namespace TaskSeries.Period

open TaskSeries.Text

/-- A number and nothing else: digits, and perhaps a point with digits behind it. -/
def IsNumber (cs : List Char) : Prop :=
  ∃ whole ≠ [], (∀ c ∈ whole, c.isDigit = true) ∧
    (cs = whole ∨ ∃ fraction ≠ [], (∀ c ∈ fraction, c.isDigit = true) ∧ cs = whole ++ '.' :: fraction)

variable {cs : List Char}

lemma IsNumber.lowerAscii_eq (h : IsNumber cs) : lowerAscii cs = cs := by
  obtain ⟨whole, -, hwhole, rfl | ⟨fraction, -, hfraction, rfl⟩⟩ := h
  · exact lowerAscii_of_digits hwhole
  · rw [lowerAscii_append, lowerAscii_of_digits hwhole]
    show whole ++ '.' :: lowerAscii fraction = _
    rw [lowerAscii_of_digits hfraction]

/-- A number is taken for a bare number. -/
lemma IsNumber.isBareNumber (h : IsNumber cs) : isBareNumber cs = true := by
  obtain ⟨whole, hne, hwhole, rfl | ⟨fraction, hne', hfraction, rfl⟩⟩ := h
  · have htake : cs.takeWhile Char.isDigit = cs := List.takeWhile_eq_self_iff.mpr hwhole
    have hdrop : cs.dropWhile Char.isDigit = [] := List.dropWhile_eq_nil_iff.mpr hwhole
    unfold Period.isBareNumber takeNumber
    rw [htake, hdrop]
    simpa using hne
  · have htake : fraction.takeWhile Char.isDigit = fraction := List.takeWhile_eq_self_iff.mpr hfraction
    have hdrop : fraction.dropWhile Char.isDigit = [] := List.dropWhile_eq_nil_iff.mpr hfraction
    unfold Period.isBareNumber takeNumber
    rw [takeWhile_digits hwhole rfl, dropWhile_digits hwhole rfl]
    simp [htake, hdrop, hne, hne']

/-- No name begins with a digit. -/
lemma ofName?_of_isDigit {c : Char} (hc : c.isDigit = true) (tail : List Char) :
    ofName? (String.ofList (c :: tail)) = none := by
  refine Period.ofName?_eq_none (fun hmem => ?_) tail
  have hletters : ['d', 'w', 'b', 'f', 'm', 'q', 's', 'y', 'a', 'h'].all (fun d => !d.isDigit) = true := by
    decide
  have hnot := List.all_eq_true.mp hletters c hmem
  rw [hc] at hnot
  exact absurd hnot (by decide)

lemma IsNumber.ofName?_eq_none (h : IsNumber cs) : ofName? (String.ofList cs) = none := by
  obtain ⟨whole, hne, hwhole, hcs⟩ := h
  obtain ⟨c, tail, rfl⟩ := List.exists_cons_of_ne_nil hne
  have hc := hwhole c List.mem_cons_self
  rcases hcs with rfl | ⟨fraction, -, -, rfl⟩
  · exact ofName?_of_isDigit hc tail
  · exact ofName?_of_isDigit hc (tail ++ '.' :: fraction)

/-- A number without a unit is no period. -/
lemma parse_of_isNumber_lowerAscii {token : String}
    (h : IsNumber (lowerAscii (trimChars token.toList))) :
    parse token = .error (.unsupported (trim token)) := by
  unfold parse parseTrimmed
  dsimp only
  rw [h.ofName?_eq_none, h.isBareNumber]
  rfl

/-- A bare number is refused as unsupported, whatever it is. -/
lemma parse_of_isNumber {token : String} (h : IsNumber (trimChars token.toList)) :
    parse token = .error (.unsupported (trim token)) := by
  refine parse_of_isNumber_lowerAscii ?_
  rwa [h.lowerAscii_eq]

/-! ## Tokens that spell seconds -/

/-- What comes of a token that spells a number of seconds. -/
def ofSeconds (token : String) (seconds : Nat) : Except PeriodError Period :=
  if seconds = 0 then .error (.zeroDuration token)
  else if seconds ≤ longest then .ok (exact seconds)
  else .error (.unrecognized token)

section
variable {token : String}

/-- A token that is neither a name nor a bare number stands for the seconds that it measures. -/
lemma parse_eq_ofSeconds {n : Nat}
    (hname : ofName? (String.ofList (lowerAscii (trimChars token.toList))) = none)
    (hbare : Period.isBareNumber (lowerAscii (trimChars token.toList)) = false)
    (h : exactSeconds? (lowerAscii (trimChars token.toList)) =
      if n ≤ longest then some n else none) :
    parse token = ofSeconds (trim token) n := by
  unfold parse parseTrimmed
  dsimp only
  rw [hname, hbare, h]
  unfold ofSeconds
  match n with
  | 0 => rfl
  | m + 1 =>
    by_cases hle : m + 1 ≤ longest
    · rw [if_pos hle, if_pos hle]
      rfl
    · rw [if_neg hle, if_neg hle]
      rfl

/-- A token that is neither a name nor a bare number and measures no seconds is not recognized. -/
lemma parse_eq_unrecognized
    (hname : ofName? (String.ofList (lowerAscii (trimChars token.toList))) = none)
    (hbare : Period.isBareNumber (lowerAscii (trimChars token.toList)) = false)
    (h : exactSeconds? (lowerAscii (trimChars token.toList)) = none) :
    parse token = .error (.unrecognized (trim token)) := by
  unfold parse parseTrimmed
  dsimp only
  rw [hname, hbare, h]
  rfl

end

/-! ## Literals -/

section
variable {token : String}

/-- Seconds make a period when there are some, and no more than the longest span. -/
lemma ofSeconds_eq_ok_iff {seconds : Nat} {p : Period} :
    ofSeconds token seconds = .ok p ↔ 1 ≤ seconds ∧ seconds ≤ longest ∧ p = exact seconds := by
  unfold ofSeconds
  split_ifs with hzero hle
  · simp [hzero]
  · rw [Except.ok.injEq]
    constructor
    · rintro rfl
      exact ⟨by omega, hle, rfl⟩
    · rintro ⟨-, -, rfl⟩
      rfl
  · simp [hle]

/-- A token that begins with a `p` is a duration or nothing. -/
lemma parse_of_duration {n : Nat} (htoken : lowerAscii (trimChars token.toList) = 'p' :: cs)
    (h : Duration cs n) : parse token = ofSeconds (trim token) n := by
  refine parse_eq_ofSeconds ?_ ?_ ?_
  · rw [htoken]
    exact Period.ofName?_eq_none (by decide) cs
  · rw [htoken]
    rfl
  · rw [htoken]
    ext m
    show isoSeconds? cs = some m ↔ _
    rw [isoSeconds?_eq_some_iff, Option.ite_none_right_eq_some, Option.some.injEq]
    constructor
    · rintro ⟨hm, hle⟩
      obtain rfl := h.unique hm
      exact ⟨hle, rfl⟩
    · rintro ⟨hle, rfl⟩
      exact ⟨h, hle⟩

/-- A token that begins like a duration and is none is not recognized. -/
lemma parse_of_not_duration (htoken : lowerAscii (trimChars token.toList) = 'p' :: cs)
    (h : ¬ ∃ n, Duration cs n) : parse token = .error (.unrecognized (trim token)) := by
  refine parse_eq_unrecognized ?_ ?_ ?_
  · rw [htoken]
    exact Period.ofName?_eq_none (by decide) cs
  · rw [htoken]
    rfl
  · rw [htoken, Option.eq_none_iff_forall_ne_some]
    exact fun n hn => h ⟨n, (isoSeconds?_eq_some_iff.mp hn).1⟩

end

/-! ## Magnitudes -/

/-- The names that periods have. -/
def names : List String :=
  ["daily", "day", "weekdays", "weekly", "week", "biweekly", "fortnight", "monthly", "month",
    "bimonthly", "quarterly", "semiannual", "yearly", "year", "annual", "biyearly", "biannual",
    "hourly"]

/-- The words for units that may follow a number. -/
def unitWords : List String :=
  ["s", "sec", "secs", "second", "seconds", "min", "mins", "minute", "minutes", "h", "hr", "hrs",
    "hour", "hours", "d", "day", "days", "w", "wk", "wks", "week", "weeks", "mo", "mth", "mths",
    "month", "months", "q", "qtr", "qtrs", "quarter", "quarters", "y", "yr", "yrs", "year", "years"]

/-- A number and the word of a unit, perhaps with white space between them. -/
def IsMagnitude (cs : List Char) : Prop :=
  ∃ number spaces word, IsNumber number ∧ (∀ c ∈ spaces, isAsciiSpace c = true) ∧
    word ∈ unitWords ∧ cs = number ++ (spaces ++ word.toList)

lemma mem_names {name : String} {p : Period} (h : ofName? name = some p) : name ∈ names := by
  rw [ofName?.eq_def] at h
  split at h
  all_goals cases h
  all_goals decide

lemma mem_unitWords {word : String} {seconds : Nat} (h : unitSeconds? word = some seconds) :
    word ∈ unitWords := by
  rw [unitSeconds?.eq_def] at h
  split at h
  all_goals cases h
  all_goals decide

lemma takeNumber_fst (cs : List Char) : (takeNumber cs).1 = cs.takeWhile Char.isDigit := by
  unfold takeNumber
  dsimp only
  split
  · split <;> rfl
  · rfl

/-- What is taken as a number is one, unless there is no digit in front. -/
lemma exists_isNumber_of_takeNumber (h : (takeNumber cs).1 ≠ []) :
    ∃ number, IsNumber number ∧ cs = number ++ (takeNumber cs).2.2 := by
  have hsplit : ∀ cs : List Char, cs.takeWhile Char.isDigit ++ cs.dropWhile Char.isDigit = cs :=
    fun _ => List.takeWhile_append_dropWhile
  have hdigits : ∀ cs : List Char, ∀ c ∈ cs.takeWhile Char.isDigit, c.isDigit = true :=
    fun _ _ => List.mem_takeWhile_imp
  have hcs := hsplit cs
  rw [takeNumber_fst] at h
  unfold takeNumber
  dsimp only
  split
  · next rest hrest =>
    rw [hrest] at hcs
    split
    · exact ⟨_, ⟨_, h, hdigits cs, .inl rfl⟩, hcs.symm⟩
    · next hfraction =>
      -- the point and the digits behind it belong to the number
      rw [List.isEmpty_iff] at hfraction
      refine ⟨_, ⟨_, h, hdigits cs, .inr ⟨_, hfraction, hdigits rest, rfl⟩⟩, ?_⟩
      rw [List.append_assoc, List.cons_append, hsplit, hcs]
  · exact ⟨_, ⟨_, h, hdigits cs, .inl rfl⟩, hcs.symm⟩

/-- What is read as a magnitude has the form of one. -/
lemma isMagnitude_of_magnitudeSeconds? {seconds : Nat} (h : magnitudeSeconds? cs = some seconds) :
    IsMagnitude cs := by
  unfold magnitudeSeconds? at h
  dsimp only at h
  rw [Option.ite_none_left_eq_some, Bool.not_eq_true, List.isEmpty_eq_false_iff] at h
  obtain ⟨hwhole, h⟩ := h
  obtain ⟨factor, hfactor, -⟩ := Option.bind_eq_some_iff.mp h
  obtain ⟨number, hnumber, hcs⟩ := exists_isNumber_of_takeNumber hwhole
  refine ⟨number, (takeNumber cs).2.2.takeWhile isAsciiSpace, _, hnumber,
    fun _ => List.mem_takeWhile_imp, mem_unitWords hfactor, ?_⟩
  rw [String.toList_ofList, List.takeWhile_append_dropWhile, ← hcs]

/-- A text that does not begin like a duration is read as a magnitude. -/
lemma exactSeconds?_of_head (h : cs.head? ≠ some 'p') : exactSeconds? cs = magnitudeSeconds? cs := by
  rw [exactSeconds?.eq_def]
  split
  · exact absurd rfl h
  · rfl

/-! ## All tokens -/

/-- What the reader of periods makes of a token depends on its lower case without the blanks around it.
A number alone is refused as such. What begins with a `p` is read as a duration: a period when its
seconds are at least one and at most the longest, refused as zero or as unknown otherwise, and unknown
when it is no duration at all. All else is read only if it is a name, or a number with a unit. -/
theorem parse_by_form (token : String) :
    (IsNumber (lowerAscii (trimChars token.toList)) →
      parse token = .error (.unsupported (trim token))) ∧
    (∀ cs, lowerAscii (trimChars token.toList) = 'p' :: cs →
      (∀ p, parse token = .ok p ↔
        ∃ seconds, Duration cs seconds ∧ 1 ≤ seconds ∧ seconds ≤ longest ∧ p = exact seconds) ∧
      (Duration cs 0 → parse token = .error (.zeroDuration (trim token))) ∧
      ((¬ ∃ seconds ≤ longest, Duration cs seconds) →
        parse token = .error (.unrecognized (trim token)))) ∧
    ((lowerAscii (trimChars token.toList)).head? ≠ some 'p' → ∀ p, parse token = .ok p →
      String.ofList (lowerAscii (trimChars token.toList)) ∈ names ∨
        IsMagnitude (lowerAscii (trimChars token.toList))) := by
  refine ⟨parse_of_isNumber_lowerAscii, fun cs htoken => ⟨fun p => ⟨fun h => ?_, ?_⟩, ?_, ?_⟩, ?_⟩
  · by_cases hduration : ∃ n, Duration cs n
    · obtain ⟨n, hn⟩ := hduration
      rw [parse_of_duration htoken hn] at h
      exact ⟨n, hn, ofSeconds_eq_ok_iff.mp h⟩
    · rw [parse_of_not_duration htoken hduration] at h
      exact absurd h nofun
  · rintro ⟨n, hn, hbounds⟩
    rw [parse_of_duration htoken hn]
    exact ofSeconds_eq_ok_iff.mpr hbounds
  · exact fun hzero => parse_of_duration htoken hzero
  · intro hshort
    by_cases hduration : ∃ n, Duration cs n
    · obtain ⟨n, hn⟩ := hduration
      have hlong : ¬ n ≤ longest := fun hle => hshort ⟨n, hle, hn⟩
      have hzero : n ≠ 0 := by omega
      rw [parse_of_duration htoken hn, ofSeconds, if_neg hzero, if_neg hlong]
    · exact parse_of_not_duration htoken hduration
  · intro hhead p h
    unfold parse parseTrimmed at h
    dsimp only at h
    split at h
    · next hname => exact .inl (mem_names hname)
    · rw [exactSeconds?_of_head hhead] at h
      split at h
      · exact absurd h nofun
      · split at h
        · exact absurd h nofun
        · exact absurd h nofun
        · next hseconds => exact .inr (isMagnitude_of_magnitudeSeconds? hseconds)

/-- A day and half an hour are read from a literal, but not the day with a `t` that nothing follows; and
a number alone is no magnitude. -/
theorem parse_by_form_dayAndHalfHour :
    Duration "1dt30m".toList 88200 ∧ parse " P1DT30M " = .ok (exact 88200) ∧
    (¬ ∃ seconds ≤ longest, Duration "1dt".toList seconds) ∧
    parse "P1DT" = .error (.unrecognized "P1DT") ∧
    IsNumber "2.5".toList ∧ parse "2.5 " = .error (.unsupported "2.5") ∧
    parse "2.5 Hrs" = .ok (exact 9000) ∧ IsMagnitude "2.5 hrs".toList := by
  have hday : IsDigits ['1'] := ⟨by decide, List.all_eq_true.mp rfl⟩
  have hminutes : IsDigits ['3', '0'] := ⟨by decide, List.all_eq_true.mp rfl⟩
  have hduration : Duration "1dt30m".toList 88200 :=
    .time (.absent (.absent (.absent (.present hday .none))))
      (.absent (.present hminutes (.absent .none))) nofun
  have hdangling : ¬ ∃ seconds ≤ longest, Duration "1dt".toList seconds := by
    rintro ⟨seconds, hle, h⟩
    exact absurd (isoSeconds?_eq_some_iff.mpr ⟨h, hle⟩) nofun
  have hnumber : IsNumber "2.5".toList :=
    ⟨['2'], by decide, List.all_eq_true.mp rfl,
      .inr ⟨['5'], by decide, List.all_eq_true.mp rfl, rfl⟩⟩
  have hmagnitude : parse "2.5 Hrs" = .ok (exact 9000) := by rfl
  exact ⟨hduration,
    (((parse_by_form " P1DT30M ").2.1 _ rfl).1 _).mpr ⟨_, hduration, by decide, by decide, rfl⟩,
    hdangling, ((parse_by_form "P1DT").2.1 _ rfl).2.2 hdangling,
    hnumber, (parse_by_form "2.5 ").1 hnumber,
    hmagnitude, ((parse_by_form "2.5 Hrs").2.2 (by decide) _ hmagnitude).resolve_left (by decide)⟩

end TaskSeries.Period
