import Mathlib.Algebra.GroupWithZero.Nat
import TaskSeries.Period.Text
import TaskSeries.Proofs.Period.Duration

/-!
# Periods read back from their texts

A period is read back from its text exactly when the reader can give that period at all. The periods
it can give are the named ones and the exact ones from a second up to the longest. What is left is the
way of an exact period through its text: a duration leaves out the components that are zero, and what
is left of it is still a duration of as many seconds (`Period.duration_spelled`).
-/

namespace TaskSeries

open TaskSeries.Text

namespace Period

variable {cs : List Char}

/-! ## The text of an exact period -/

/-- A component of a duration, left out when its count is zero. -/
def spelled (designator : Char) (count : Nat) : List Char :=
  if count = 0 then [] else digitsOfNat count ++ [designator]

/-- The time part of a duration in lower case. -/
def spelledTime (seconds : Nat) : List Char :=
  if seconds % 86400 = 0 then []
  else 't' :: (spelled 'h' (seconds % 86400 / 3600) ++
    (spelled 'm' (seconds % 86400 / 60 % 60) ++ spelled 's' (seconds % 86400 % 60)))

/-- The time part of a duration as it is written. -/
def writtenTime (seconds : Nat) : List Char :=
  if seconds % 86400 = 0 then []
  else 'T' :: (spelled 'H' (seconds % 86400 / 3600) ++
    (spelled 'M' (seconds % 86400 / 60 % 60) ++ spelled 'S' (seconds % 86400 % 60)))

lemma lowerAscii_spelled (d : Char) (count : Nat) :
    lowerAscii (spelled d count) = spelled d.toLower count := by
  unfold spelled
  split
  · rfl
  · rw [lowerAscii_append, lowerAscii_digitsOfNat]
    rfl

lemma lowerAscii_writtenTime (seconds : Nat) : lowerAscii (writtenTime seconds) = spelledTime seconds := by
  have hcons : ∀ c cs, lowerAscii (c :: cs) = c.toLower :: lowerAscii cs := fun c cs => rfl
  unfold writtenTime spelledTime
  split
  · rfl
  · rw [hcons, lowerAscii_append, lowerAscii_append, lowerAscii_spelled, lowerAscii_spelled,
      lowerAscii_spelled]
    rfl

/-- A part of a duration is its number with the designator behind. -/
lemma toList_durationPart {designator : String} {d : Char} (count : Nat)
    (hd : designator.toList = [d]) : (durationPart count designator).toList = spelled d count := by
  rw [durationPart, spelled]
  split
  · rfl
  · rw [String.toList_append, natText, String.toList_ofList, hd]

/-- A duration is its sign, its letter and its components. -/
lemma toList_isoDuration {seconds : Int} (h : seconds ≠ 0) :
    (isoDuration seconds).toList = (if seconds < 0 then ['-'] else []) ++
      'P' :: (spelled 'D' (seconds.natAbs / 86400) ++ writtenTime seconds.natAbs) := by
  have hday : ∀ k, (durationPart k "D").toList = spelled 'D' k := fun k => toList_durationPart k rfl
  have htime : (durationTime (seconds.natAbs % 86400)).toList = writtenTime seconds.natAbs := by
    have hhour : ∀ k, (durationPart k "H").toList = spelled 'H' k := fun k => toList_durationPart k rfl
    have hminute : ∀ k, (durationPart k "M").toList = spelled 'M' k := fun k => toList_durationPart k rfl
    have hsecond : ∀ k, (durationPart k "S").toList = spelled 'S' k := fun k => toList_durationPart k rfl
    have ht : "T".toList = ['T'] := rfl
    rw [durationTime, writtenTime]
    split
    · rfl
    · simp only [String.toList_append, hhour, hminute, hsecond, ht, List.append_assoc,
        List.cons_append, List.nil_append]
  have hsign : (if seconds < 0 then "-" else "").toList = if seconds < 0 then ['-'] else [] := by
    split <;> rfl
  have hp : "P".toList = ['P'] := rfl
  rw [isoDuration, if_neg h]
  simp only [String.toList_append, hsign, hp, hday, htime, List.append_assoc, List.cons_append,
    List.nil_append]

/-- A duration in lower case is its letter and its components. -/
lemma lowerAscii_isoDuration {seconds : Nat} (h : 1 ≤ seconds) :
    lowerAscii (isoDuration seconds).toList
      = 'p' :: (spelled 'd' (seconds / 86400) ++ spelledTime seconds) := by
  have hpos : (seconds : Int) ≠ 0 := by omega
  have hsign : ¬ (seconds : Int) < 0 := by omega
  rw [toList_isoDuration hpos, if_neg hsign, Int.natAbs_natCast, List.nil_append, ← List.singleton_append,
    lowerAscii_append, lowerAscii_append, lowerAscii_spelled, lowerAscii_writtenTime]
  rfl

/-- A component with its digits and the seconds of its unit, left out when its count is zero. -/
def component (count seconds : Nat) : List (List Char × Nat) :=
  if count = 0 then [] else [(digitsOfNat count, seconds)]

lemma component_eq_nil_iff {count seconds : Nat} : component count seconds = [] ↔ count = 0 := by
  unfold component
  split_ifs with h <;> simp [h]

lemma weight_component (count seconds : Nat) : weight (component count seconds) = count * seconds := by
  unfold component
  split_ifs with h
  · rw [h, Nat.zero_mul, weight_nil]
  · rw [weight_cons, natOfDigits_digitsOfNat, weight_nil, Nat.add_zero]

/-- A part that is written in front of components is the first of them, if it is not left out. -/
lemma components_spelled {units : List (Char × Nat)} {counts : List (List Char × Nat)}
    (h : Components units cs counts) (d : Char) (seconds count : Nat) :
    Components ((d, seconds) :: units) (spelled d count ++ cs) (component count seconds ++ counts) := by
  unfold spelled component
  split_ifs with hcount
  · exact .absent h
  · rw [List.append_assoc]
    exact .present ⟨digitsOfNat_ne_nil count, all_isDigit_digitsOfNat count⟩ h

/-- A component that is left out when its count is zero adds as much to the seconds either way. -/
lemma exists_components_spelled {units : List (Char × Nat)} {counts : List (List Char × Nat)}
    (h : Components units cs counts) (d : Char) (seconds count : Nat) :
    ∃ counts', Components ((d, seconds) :: units) (spelled d count ++ cs) counts' ∧
      weight counts' = count * seconds + weight counts ∧
      (counts' = [] → count = 0 ∧ counts = []) := by
  refine ⟨_, components_spelled h d seconds count, ?_, fun hnil => ?_⟩
  · rw [weight_append, weight_component]
  · rwa [List.append_eq_nil_iff, component_eq_nil_iff] at hnil

/-- What is spelled of a number of seconds is a duration of as many seconds. -/
lemma duration_spelled {seconds : Nat} (h : 1 ≤ seconds) :
    Duration (spelled 'd' (seconds / 86400) ++ spelledTime seconds) seconds := by
  obtain ⟨dates, hdates, hdateSum, hdateNil⟩ :=
    exists_components_spelled .none 'd' 86400 (seconds / 86400)
  rw [List.append_nil] at hdates
  rw [weight_nil, Nat.add_zero] at hdateSum
  have hdate : Components dateComponents (spelled 'd' (seconds / 86400)) dates :=
    .absent (.absent (.absent hdates))
  by_cases hday : seconds % 86400 = 0
  · have hne : dates ≠ [] := fun hnil => by
      have hzero := (hdateNil hnil).1
      omega
    have htotal : weight dates = seconds := by omega
    have hduration := Duration.date hdate hne
    rw [htotal] at hduration
    rwa [spelledTime, if_pos hday, List.append_nil]
  · obtain ⟨ss, hss, hssSum, hssNil⟩ :=
      exists_components_spelled .none 's' 1 (seconds % 86400 % 60)
    obtain ⟨ms, hms, hmsSum, hmsNil⟩ :=
      exists_components_spelled hss 'm' 60 (seconds % 86400 / 60 % 60)
    obtain ⟨hs, hhs, hhsSum, hhsNil⟩ :=
      exists_components_spelled hms 'h' 3600 (seconds % 86400 / 3600)
    rw [List.append_nil] at hhs
    rw [weight_nil] at hssSum
    have hne : hs ≠ [] := fun hnil => by
      obtain ⟨hhour, hnil⟩ := hhsNil hnil
      obtain ⟨hminute, hnil⟩ := hmsNil hnil
      have hsecond := (hssNil hnil).1
      omega
    have htotal : weight dates + weight hs = seconds := by omega
    have hduration := Duration.time hdate hhs hne
    rw [htotal] at hduration
    rwa [spelledTime, if_neg hday]

/-! ## Names -/

/-- Every name begins with one of these letters. -/
lemma ofName?_eq_none {c : Char} (hc : c ∉ ['d', 'w', 'b', 'f', 'm', 'q', 's', 'y', 'a', 'h'])
    (cs : List Char) : ofName? (String.ofList (c :: cs)) = none := by
  have hne : ∀ name : String,
      name.toList.head? ∈ ['d', 'w', 'b', 'f', 'm', 'q', 's', 'y', 'a', 'h'].map some →
      String.ofList (c :: cs) ≠ name := by
    rintro name hname rfl
    exact hc (by simpa using hname)
  rw [ofName?.eq_def]
  split
  all_goals first
    | rfl
    | next heq => exact absurd heq (hne _ (by decide))

/-- The calendar periods that have a name. -/
def named : List Period :=
  [calendar .day 1 false, weekdays, calendar .week 1 false, calendar .week 2 false,
    calendar .month 1 false, calendar .month 2 false, calendar .month 3 false,
    calendar .month 6 false, calendar .year 1 false, calendar .year 2 false]

/-- A period that the reader can give: one with a name, or an exact one from a second up to the
longest. -/
def Accepted (p : Period) : Prop :=
  p ∈ named ∨ ∃ seconds : Int, p = exact seconds ∧ 1 ≤ seconds ∧ seconds ≤ longest

lemma accepted_of_ofName? {name : String} {p : Period} (h : ofName? name = some p) :
    p.Accepted := by
  rw [ofName?.eq_def] at h
  split at h
  all_goals cases h
  all_goals first
    | exact .inl (by decide)
    | exact .inr ⟨3600, rfl, by decide, by decide⟩

/-! ## What the reader gives -/

/-- No magnitude is longer than the longest span. -/
lemma magnitudeSeconds?_le {n : Nat} (h : magnitudeSeconds? cs = some n) : n ≤ longest := by
  simp only [magnitudeSeconds?, Option.bind_eq_bind, Option.ite_none_left_eq_some,
    Option.bind_eq_some_iff, Option.ite_none_right_eq_some] at h
  obtain ⟨_, _, _, _, _, _, _, hle, h⟩ := h
  rwa [← Option.some.inj h]

lemma exactSeconds?_le {n : Nat} (h : exactSeconds? cs = some n) : n ≤ longest := by
  rw [exactSeconds?.eq_def] at h
  split at h
  · exact (isoSeconds?_eq_some_iff.mp h).2
  · exact magnitudeSeconds?_le h

/-- Whatever is read is a period that has a name, or an exact one within the bounds. -/
lemma accepted_of_parse {token : String} {p : Period} (h : parse token = .ok p) :
    p.Accepted := by
  rw [parse, parseTrimmed] at h
  split at h
  · next hname =>
    rw [← Except.ok.inj h]
    exact accepted_of_ofName? hname
  · split at h
    · exact absurd h nofun
    · split at h
      · exact absurd h nofun
      · exact absurd h nofun
      · next seconds hzero hseconds =>
        have hpos : seconds ≠ 0 := by
          rintro rfl
          exact hzero rfl
        have hle := exactSeconds?_le hseconds
        rw [← Except.ok.inj h]
        exact .inr ⟨seconds, rfl, by omega, by omega⟩

/-! ## The way through the text -/

lemma isBlank_of_spelled {d : Char} {count : Nat} (hd : isBlank d = false) :
    ∀ c ∈ spelled d count, isBlank c = false := by
  intro c hc
  rw [spelled] at hc
  split at hc
  · exact absurd hc List.not_mem_nil
  · rcases List.mem_append.mp hc with hc | hc
    · exact isBlank_of_isDigit (all_isDigit_digitsOfNat _ c hc)
    · rwa [List.mem_singleton.mp hc]

lemma isBlank_of_spelledTime {seconds : Nat} : ∀ c ∈ spelledTime seconds, isBlank c = false := by
  intro c hc
  rw [spelledTime] at hc
  split at hc
  · exact absurd hc List.not_mem_nil
  · rw [List.mem_cons, List.mem_append, List.mem_append] at hc
    rcases hc with rfl | hc | hc | hc
    · decide
    · exact isBlank_of_spelled (by decide) c hc
    · exact isBlank_of_spelled (by decide) c hc
    · exact isBlank_of_spelled (by decide) c hc

/-- The reader finds a duration as it was written: there is nothing to trim. -/
lemma lowerAscii_trimChars_isoDuration {seconds : Nat} (h : 1 ≤ seconds) :
    lowerAscii (trimChars (isoDuration seconds).toList)
      = 'p' :: (spelled 'd' (seconds / 86400) ++ spelledTime seconds) := by
  rw [← trimChars_lowerAscii, lowerAscii_isoDuration h]
  refine trimChars_eq_self fun c hc => ?_
  rw [List.mem_cons, List.mem_append] at hc
  rcases hc with rfl | hc | hc
  · decide
  · exact isBlank_of_spelled (by decide) c hc
  · exact isBlank_of_spelledTime c hc

/-- An exact period within the bounds is read back. -/
lemma parse_isoDuration {seconds : Nat} (h : 1 ≤ seconds) (hle : seconds ≤ longest) :
    parse (isoDuration seconds) = .ok (exact seconds) := by
  obtain ⟨n, rfl⟩ : ∃ n, seconds = n + 1 := ⟨seconds - 1, by omega⟩
  rw [parse, parseTrimmed, lowerAscii_trimChars_isoDuration h, ofName?_eq_none (by decide)]
  have hbare : isBareNumber ('p' :: (spelled 'd' ((n + 1) / 86400) ++ spelledTime (n + 1))) = false :=
    rfl
  rw [hbare, exactSeconds?, isoSeconds?_eq_some_iff.mpr ⟨duration_spelled h, hle⟩]
  rfl

/-- A period with a name is read back from it. -/
lemma parse_text_of_named {p : Period} (h : p ∈ named) : parse p.text = .ok p := by
  simp only [named, List.mem_cons, List.not_mem_nil, or_false] at h
  rcases h with rfl | rfl | rfl | rfl | rfl | rfl | rfl | rfl | rfl | rfl <;> rfl

/-- A period is read back from its text exactly when it is one that the reader can give. So whatever
was read once is read again from the text it is shown as. -/
theorem parse_text :
    (∀ p : Period, parse p.text = .ok p ↔ p.Accepted)
    ∧ ∀ token p, parse token = .ok p → parse p.text = .ok p := by
  have hback : ∀ p : Period, p.Accepted → parse p.text = .ok p := by
    rintro p (h | ⟨seconds, rfl, h, hle⟩)
    · exact parse_text_of_named h
    · obtain ⟨n, rfl⟩ := Int.eq_ofNat_of_zero_le (by omega : 0 ≤ seconds)
      exact parse_isoDuration (by omega) (by omega)
  exact ⟨fun p => ⟨accepted_of_parse, hback p⟩, fun token p h => hback p (accepted_of_parse h)⟩

/-- An hour and a half is read again from `PT1H30M`. -/
theorem parse_text_hourAndHalf :
    parse " 1.5H " = .ok (exact 5400) ∧ parse (exact 5400).text = .ok (exact 5400) :=
  have h : parse " 1.5H " = .ok (exact 5400) := by rfl
  ⟨h, parse_text.2 _ _ h⟩

end Period

end TaskSeries
