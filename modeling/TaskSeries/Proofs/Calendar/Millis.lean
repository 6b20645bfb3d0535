import TaskSeries.Proofs.Calendar.Rank
import TaskSeries.Store.Row

/-!
# Instants in whole milliseconds

The store keeps instants as milliseconds. Every instant survives this up to its last regular one, with
the part below the millisecond cut off and a leap second counted as the second behind it
(`stored_eq_cutToMillis`); only the leap second at the end of the range has a number of milliseconds
that no instant has (`ofMillis?_toMillis_eq_none_iff`).
-/

namespace TaskSeries.Calendar.Instant

/-- An instant has the seconds and nanoseconds that it was made of. -/
lemma of?_eq_some_iff {second : Int} {nano : Nat} {i : Instant} :
    of? second nano = some i ↔ i.second = second ∧ i.nano = nano := by
  unfold of?
  constructor
  · intro h
    split at h
    · rw [← Option.some.inj h]
      exact ⟨rfl, rfl⟩
    · cases h
  · rintro ⟨rfl, rfl⟩
    rw [dif_pos i.representable]

/-- The milliseconds of an instant that was read from milliseconds. -/
lemma toMillis_of_ofMillis? {ms : Int} {i : Instant} (h : ofMillis? ms = some i) :
    i.toMillis = ms := by
  obtain ⟨hsecond, hnano⟩ := of?_eq_some_iff.mp h
  unfold toMillis
  rw [hsecond, hnano]
  omega

/-- Behind the last regular instant there is nothing but the leap second at the end of the range. -/
lemma lastRegular_lt_iff (i : Instant) :
    lastRegular < i ↔ i.second = lastSecond ∧ 1000000000 ≤ i.nano := by
  obtain ⟨-, hlast, -⟩ := i.representable
  show lastSecond < i.second ∨ lastSecond = i.second ∧ 999999999 < i.nano ↔ _
  omega

/-- Only the leap second at the end of the range does not come back from its milliseconds. -/
lemma ofMillis?_toMillis_eq_none_iff (i : Instant) :
    ofMillis? i.toMillis = none ↔ lastRegular < i := by
  obtain ⟨hfirst, hlast, hrange⟩ := i.representable
  have hnano := i.nano_lt
  have hms : i.toMillis = 1000 * i.second + (i.nano / 1000000 : Nat) := rfl
  rw [lastRegular_lt_iff]
  unfold ofMillis? of?
  rw [dite_eq_right_iff]
  unfold Representable
  unfold lastSecond firstSecond at *
  constructor
  · intro h
    have hout : ¬ _ := fun hin => absurd (h hin) nofun
    omega
  · rintro ⟨hsecond, hleap⟩ hin
    omega

/-! ## Instants as they are stored -/

/-- An instant in the last leap second is kept as it is, since its milliseconds give nothing back. -/
lemma stored_of_lastRegular_lt {i : Instant} (h : lastRegular < i) : i.stored = i := by
  unfold stored
  rw [(ofMillis?_toMillis_eq_none_iff i).mpr h]
  rfl

/-- What is stored has the same milliseconds. -/
lemma toMillis_stored (i : Instant) : i.stored.toMillis = i.toMillis := by
  unfold stored
  cases h : ofMillis? i.toMillis with
  | none => rfl
  | some j => exact toMillis_of_ofMillis? h

/-- What is stored stays as it is when it is stored again. -/
lemma stored_stored (i : Instant) : i.stored.stored = i.stored := by
  cases h : ofMillis? i.toMillis with
  | none =>
    have hself := stored_of_lastRegular_lt ((ofMillis?_toMillis_eq_none_iff i).mp h)
    rw [hself, hself]
  | some j =>
    have hj : i.stored = j := by
      unfold stored
      rw [h]
      rfl
    show (ofMillis? i.stored.toMillis).getD i.stored = i.stored
    rw [toMillis_stored, h, hj]
    rfl

/-- What is stored comes back exactly when the instant itself does. -/
lemma stored_le_lastRegular_iff (i : Instant) : i.stored ≤ lastRegular ↔ i ≤ lastRegular := by
  show ¬ lastRegular < i.stored ↔ ¬ lastRegular < i
  rw [← ofMillis?_toMillis_eq_none_iff, ← ofMillis?_toMillis_eq_none_iff, toMillis_stored]

/-! ## Whole milliseconds -/

/-- The instant is in no leap second and has no part below the millisecond. -/
def IsWhole (i : Instant) : Prop :=
  i.nano < 1000000000 ∧ i.nano % 1000000 = 0

/-- Whole milliseconds come back from the store unchanged. -/
lemma IsWhole.stored_eq {i : Instant} (h : i.IsWhole) : i.stored = i := by
  obtain ⟨hregular, hwhole⟩ := h
  have hback : ofMillis? i.toMillis = some i := by
    unfold ofMillis? toMillis
    rw [of?_eq_some_iff]
    omega
  unfold stored
  rw [hback]
  rfl

lemma IsWhole.le_lastRegular {i : Instant} (h : i.IsWhole) : i ≤ lastRegular := by
  show ¬ lastRegular < i
  rw [lastRegular_lt_iff]
  exact fun hleap => absurd h.1 (Nat.not_lt.mpr hleap.2)

/-- A stored instant has whole milliseconds, the leap second at the end of the range apart. -/
lemma isWhole_of_stored_eq {i : Instant} (h : i.stored = i) (hregular : i ≤ lastRegular) :
    i.IsWhole := by
  cases hback : ofMillis? i.toMillis with
  | none => exact absurd ((ofMillis?_toMillis_eq_none_iff i).mp hback) hregular
  | some j =>
    have hj : j = i := by
      unfold stored at h
      rw [hback] at h
      exact h
    obtain ⟨hsecond, hnano⟩ := of?_eq_some_iff.mp hback
    rw [hj] at hnano
    unfold IsWhole
    omega

/-! ## Rounding to the millisecond -/

/-- The instant without its part below the millisecond. -/
def cutToMillis (i : Instant) : Instant where
  second := i.second
  nano := i.nano / 1000000 * 1000000
  representable := by
    have h := i.representable
    unfold Representable at h ⊢
    omega

/-- The instant with a leap second counted as the second behind it. The leap second at the end of the
range has none behind it. -/
def withoutLeap (i : Instant) : Instant :=
  if i.nano < 1000000000 then i else (of? (i.second + 1) (i.nano - 1000000000)).getD i

/-- The cut instant is the latest one in whole milliseconds that is not later. -/
lemma cutToMillis_spec (i : Instant) :
    i.cutToMillis.nano % 1000000 = 0 ∧ i.cutToMillis ≤ i ∧
      ∀ j : Instant, j.nano % 1000000 = 0 → j ≤ i → j ≤ i.cutToMillis := by
  refine ⟨Nat.mul_mod_left _ _, ?_, fun j hj hle => ?_⟩
  · rw [le_iff_rank_le]
    unfold rank cutToMillis
    dsimp only
    omega
  · have hi := i.nano_lt
    have hj' := j.nano_lt
    rw [le_iff_rank_le] at hle ⊢
    unfold rank cutToMillis at *
    dsimp only
    omega

lemma withoutLeap_of_regular {i : Instant} (h : i.nano < 1000000000) : i.withoutLeap = i :=
  if_pos h

/-- What the store keeps of an instant that comes back: the milliseconds, a leap second being counted
as the second behind it. -/
lemma stored_eq_cutToMillis {i : Instant} (h : i ≤ lastRegular) :
    i.stored = i.withoutLeap.cutToMillis := by
  have hback : ofMillis? i.toMillis = some i.withoutLeap.cutToMillis := by
    unfold ofMillis? toMillis
    rw [of?_eq_some_iff]
    have hlast : ¬ (i.second = lastSecond ∧ 1000000000 ≤ i.nano) := by
      rw [← lastRegular_lt_iff]
      exact h
    obtain ⟨hfirst, hbound, hnano⟩ := i.representable
    by_cases hregular : i.nano < 1000000000
    · rw [withoutLeap_of_regular hregular]
      show i.second = _ ∧ i.nano / 1000000 * 1000000 = _
      omega
    · have hnext : Representable (i.second + 1) (i.nano - 1000000000) := by
        unfold Representable
        omega
      have hof : of? (i.second + 1) (i.nano - 1000000000) = some ⟨_, _, hnext⟩ := dif_pos hnext
      unfold withoutLeap
      rw [if_neg hregular, hof]
      show i.second + 1 = _ ∧ (i.nano - 1000000000) / 1000000 * 1000000 = _
      omega
  unfold stored
  rw [hback]
  rfl

end TaskSeries.Calendar.Instant
