import TaskSeries.Proofs.Period.RoundTrip

/-!
# The spelling of durations

A number of seconds is spelled as days, hours, minutes and seconds, each of them below the next larger
unit and left out when it is zero (`Period.Spelling`). The designators tell the components apart, so
that a text is the spelling of one number at most (`Period.Spelling.unique`), and every number is told
from all others by its text (`Period.isoDuration_exact`).
-/

namespace TaskSeries.Period

open TaskSeries.Text

/-! ## What a spelling is -/

/-- The unit of the date that durations are spelled with, and its seconds. -/
def dayUnits : List (Char × Nat) := [('D', 86400)]

/-- The units of the time that durations are spelled with, and their seconds. -/
def clockUnits : List (Char × Nat) := [('H', 3600), ('M', 60), ('S', 1)]

/-- How many of a unit of the time make one of the next larger unit. -/
def ceiling (seconds : Nat) : Nat := if seconds = 3600 then 24 else 60

/-- The time section of a duration with its components: there is none, or it has at least one. -/
inductive TimeSection : List Char → List (List Char × Nat) → Prop
  | none : TimeSection [] []
  | some {cs counts} (h : Components clockUnits cs counts) (hne : counts ≠ []) :
    TimeSection ('T' :: cs) counts

/-- A text spells a number of seconds with components of the date and of the time. -/
structure Spelling (n : Int) (text : List Char) (days times : List (List Char × Nat)) : Prop where
  /-- A negative number has a sign, and no other one has. -/
  layout : ∃ date time, text = (if n < 0 then ['-'] else []) ++ 'P' :: (date ++ time) ∧
    Components dayUnits date days ∧ TimeSection time times
  nonempty : days ++ times ≠ []
  /-- No count has zeros in front. -/
  decimal : ∀ count ∈ days ++ times, count.1 = digitsOfNat (natOfDigits count.1)
  nonzero : n ≠ 0 → ∀ count ∈ days ++ times, natOfDigits count.1 ≠ 0
  below : ∀ count ∈ times, natOfDigits count.1 < ceiling count.2
  total : weight (days ++ times) = n.natAbs

section
variable {n m : Int} {text cs time : List Char} {days days' times times' : List (List Char × Nat)}

/-! ## One number at most -/

/-- A section on the time is made of components in one way only. -/
lemma TimeSection.unique (h : TimeSection time times) (h' : TimeSection time times') :
    times = times' := by
  have htaken : ∀ {cs counts}, Components clockUnits cs counts →
      takeComponents clockUnits cs = (counts, []) := by
    intro cs counts hcs
    have hend : EndsComponents clockUnits [] := nofun
    have hnil := hcs.takeComponents_append (by decide) (by decide) hend
    rwa [List.append_nil] at hnil
  cases h with
  | none =>
    cases h'
    rfl
  | some h =>
    cases h' with
    | some h' => exact congrArg Prod.fst ((htaken h).symm.trans (htaken h'))

/-- The days end where the time section begins. -/
lemma takeComponents_days (h : Components dayUnits cs days) (htime : TimeSection time times) :
    takeComponents dayUnits (cs ++ time) = (days, time) := by
  refine h.takeComponents_append (by decide) (by decide) fun c hc => ?_
  cases htime with
  | none => exact absurd hc nofun
  | some _ =>
    rw [← Option.some.inj hc]
    decide

/-- A text spells one number at most. -/
lemma Spelling.unique (h : Spelling n text days times) (h' : Spelling m text days' times') : n = m := by
  obtain ⟨date, time, htext, hdate, htime⟩ := h.layout
  obtain ⟨date', time', htext', hdate', htime'⟩ := h'.layout
  have hlayout := htext.symm.trans htext'
  have hsame : (n < 0 ↔ m < 0) ∧ date ++ time = date' ++ time' := by
    by_cases hn : n < 0 <;> by_cases hm : m < 0 <;> simp [hn, hm] at hlayout ⊢
    all_goals exact hlayout
  have htaken := (takeComponents_days hdate htime).symm
  rw [hsame.2, takeComponents_days hdate' htime'] at htaken
  obtain ⟨rfl, rfl⟩ := Prod.mk.inj htaken
  obtain rfl := htime.unique htime'
  have htotal := h.total.symm.trans h'.total
  omega

/-! ## The spelling of every number -/

/-- A component is left out exactly when its number is zero. -/
lemma mem_component_iff {entry : List Char × Nat} {count seconds : Nat} :
    entry ∈ component count seconds ↔ count ≠ 0 ∧ entry = (digitsOfNat count, seconds) := by
  unfold component
  split_ifs with h <;> simp [h]

/-- The components of a number of seconds within a day. -/
def clock (seconds : Nat) : List (List Char × Nat) :=
  component (seconds / 3600) 3600 ++ (component (seconds / 60 % 60) 60 ++ component (seconds % 60) 1)

lemma clock_eq_nil_iff {seconds : Nat} : clock seconds = [] ↔ seconds = 0 := by
  unfold clock
  simp only [List.append_eq_nil_iff, component_eq_nil_iff]
  omega

/-- Hours, minutes and seconds add up to the time of day. -/
lemma weight_clock (seconds : Nat) : weight (clock seconds) = seconds := by
  unfold clock
  simp only [weight_append, weight_component]
  omega

/-- No count of a clock makes one of the next larger unit. -/
lemma lt_ceiling_of_mem_clock {seconds : Nat} (h : seconds < 86400) :
    ∀ count ∈ clock seconds, natOfDigits count.1 < ceiling count.2 := by
  intro count hcount
  simp only [clock, List.mem_append, mem_component_iff] at hcount
  rcases hcount with ⟨-, rfl⟩ | ⟨-, rfl⟩ | ⟨-, rfl⟩
  all_goals
    rw [natOfDigits_digitsOfNat]
    show _ < if _ then _ else _
    split_ifs <;> omega

/-- The written time is a section on the time, with the components of the clock. -/
lemma timeSection_writtenTime (seconds : Nat) :
    TimeSection (writtenTime seconds) (clock (seconds % 86400)) := by
  unfold writtenTime
  split_ifs with h
  · rw [clock_eq_nil_iff.mpr h]
    exact .none
  · have hclock := components_spelled (components_spelled (components_spelled .none 'S' 1
      (seconds % 86400 % 60)) 'M' 60 (seconds % 86400 / 60 % 60)) 'H' 3600 (seconds % 86400 / 3600)
    rw [List.append_nil, List.append_nil] at hclock
    exact .some hclock (mt clock_eq_nil_iff.mp h)

/-- The components of a number are those of its days and of the rest. -/
lemma count_of_mem_components {days seconds : Nat} {count : List Char × Nat}
    (h : count ∈ component days 86400 ++ clock seconds) :
    ∃ k, k ≠ 0 ∧ count.1 = digitsOfNat k := by
  simp only [clock, List.mem_append, mem_component_iff] at h
  rcases h with ⟨hne, rfl⟩ | ⟨hne, rfl⟩ | ⟨hne, rfl⟩ | ⟨hne, rfl⟩ <;> exact ⟨_, hne, rfl⟩

lemma spelling_zero : Spelling 0 "PT0S".toList [] [(['0'], 1)] where
  layout := by
    have htime : Components clockUnits (['0'] ++ ['S']) [(['0'], 1)] :=
      components_single (by decide) ⟨List.cons_ne_nil _ _, List.forall_mem_singleton.mpr rfl⟩
    exact ⟨[], ['T', '0', 'S'], rfl, components_nil _, .some htime (List.cons_ne_nil _ _)⟩
  nonempty := List.cons_ne_nil _ _
  decimal := by
    refine List.forall_mem_singleton.mpr ?_
    rw [show natOfDigits ['0'] = 0 from rfl, digitsOfNat]
    rfl
  nonzero := fun h => absurd rfl h
  below := by decide
  total := rfl

/-- A duration that is not zero is spelled by its days and its clock. -/
lemma spelling_of_ne_zero (h : n ≠ 0) :
    Spelling n (isoDuration n).toList (component (n.natAbs / 86400) 86400) (clock (n.natAbs % 86400)) where
  layout := by
    have hdate := components_spelled .none 'D' 86400 (n.natAbs / 86400)
    rw [List.append_nil, List.append_nil] at hdate
    exact ⟨_, _, toList_isoDuration h, hdate, timeSection_writtenTime _⟩
  nonempty := by
    rw [Ne, List.append_eq_nil_iff, component_eq_nil_iff, clock_eq_nil_iff]
    omega
  decimal := by
    intro count hcount
    obtain ⟨k, -, hk⟩ := count_of_mem_components hcount
    rw [hk, natOfDigits_digitsOfNat]
  nonzero := by
    intro _ count hcount
    obtain ⟨k, hne, hk⟩ := count_of_mem_components hcount
    rwa [hk, natOfDigits_digitsOfNat]
  below := lt_ceiling_of_mem_clock (Nat.mod_lt _ (by decide))
  total := by
    rw [weight_append, weight_component, weight_clock]
    omega

lemma exists_spelling (n : Int) : ∃ days times, Spelling n (isoDuration n).toList days times := by
  by_cases h : n = 0
  · subst h
    exact ⟨_, _, spelling_zero⟩
  · exact ⟨_, _, spelling_of_ne_zero h⟩

/-- A duration is exact for every number of seconds: a sign if the number is negative, days if there are
any, and behind a `T` the hours below 24, minutes below 60 and seconds below 60 that are not zero, if
there are any, at least one component in all (`PT0S` for zero), which add up to the number without its
sign. So different numbers have different texts. -/
theorem isoDuration_exact :
    (∀ n : Int, ∃ days times, Spelling n (isoDuration n).toList days times) ∧
    isoDuration 0 = "PT0S" ∧ ∀ n m : Int, isoDuration n = isoDuration m ↔ n = m := by
  refine ⟨exists_spelling, rfl, fun n m => ⟨fun h => ?_, congrArg isoDuration⟩⟩
  obtain ⟨_, _, hn⟩ := exists_spelling n
  obtain ⟨_, _, hm⟩ := exists_spelling m
  rw [h] at hn
  exact hn.unique hm

/-- The number without a positive counterpart in 64 bits is spelled too. -/
example : isoDuration (-9223372036854775808) = "-P106751991167300DT15H30M8S" := by cbv

end

end TaskSeries.Period
