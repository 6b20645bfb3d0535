import Mathlib.Tactic.Lemma

/-!
# How computations end

`Ends good bad x` says that a computation with errors ends in a value of one kind or an error of the
other kind. Its rules follow the ways in which such computations are put together, so that what holds
of the parts carries over to the whole without going through the cases again.
-/

namespace TaskSeries

variable {ε ε' α β : Type}

/-- The computation ends in a good value or a bad error. -/
inductive Ends (good : α → Prop) (bad : ε → Prop) : Except ε α → Prop
  | ok {a : α} (h : good a) : Ends good bad (.ok a)
  | error {e : ε} (h : bad e) : Ends good bad (.error e)

namespace Ends

variable {good : α → Prop} {good' : β → Prop} {bad : ε → Prop} {x : Except ε α}

lemma of_ok {a : α} (h : Ends good bad (.ok a)) : good a := by
  cases h
  assumption

lemma of_error {e : ε} (h : Ends good bad (.error e)) : bad e := by
  cases h
  assumption

lemma mono {better : α → Prop} (h : Ends good bad x) (hgood : ∀ a, good a → better a) :
    Ends better bad x := by
  cases h with
  | ok h => exact .ok (hgood _ h)
  | error h => exact .error h

lemma mono_error {worse : ε → Prop} (h : Ends good bad x) (hbad : ∀ e, bad e → worse e) :
    Ends good worse x := by
  cases h with
  | ok h => exact .ok h
  | error h => exact .error (hbad _ h)

/-- A computation of two steps ends well when each of them does, and fails as one of them fails. -/
lemma bind {f : α → Except ε β} (h : Ends good bad x) (hf : ∀ a, good a → Ends good' bad (f a)) :
    Ends good' bad (x >>= f) := by
  cases h with
  | ok h => exact hf _ h
  | error h => exact .error h

lemma map {f : α → β} (h : Ends (fun a => good' (f a)) bad x) : Ends good' bad (x.map f) := by
  cases h with
  | ok h => exact .ok h
  | error h => exact .error h

lemma mapError {f : ε → ε'} {bad : ε' → Prop} (h : Ends good (fun e => bad (f e)) x) :
    Ends good bad (x.mapError f) := by
  cases h with
  | ok h => exact .ok h
  | error h => exact .error h

/-- A walk along a list keeps what each step takes from the rest of the list to the next. -/
lemma foldlM {f : β → α → Except ε β} {inv : List α → β → Prop}
    (step : ∀ a rest b, inv (a :: rest) b → Ends (inv rest) bad (f b a)) {l : List α} {b : β}
    (h : inv l b) : Ends (inv []) bad (l.foldlM f b) := by
  induction l generalizing b with
  | nil => exact .ok h
  | cons a rest ih =>
    rw [List.foldlM_cons]
    exact (step a rest b h).bind fun _ => ih

end Ends

/-! ## How a computation has ended -/

/-- Two steps succeed when the first does and the second does with what it gave. -/
lemma bind_eq_ok {x : Except ε α} {f : α → Except ε β} {b : β} :
    x >>= f = .ok b ↔ ∃ a, x = .ok a ∧ f a = .ok b := by
  cases x with
  | ok a =>
    constructor
    · exact fun h => ⟨a, rfl, h⟩
    · rintro ⟨a', ha, h⟩
      rw [Except.ok.inj ha]
      exact h
  | error e =>
    constructor
    · exact fun h => absurd h nofun
    · exact fun ⟨a, ha, _⟩ => absurd ha nofun

lemma bind_eq_error {x : Except ε α} {f : α → Except ε β} {e : ε} :
    x >>= f = .error e ↔ x = .error e ∨ ∃ a, x = .ok a ∧ f a = .error e := by
  cases x with
  | ok a =>
    constructor
    · exact fun h => Or.inr ⟨a, rfl, h⟩
    · rintro (h | ⟨a', ha, h⟩)
      · exact absurd h nofun
      · rw [Except.ok.inj ha]
        exact h
  | error e' =>
    constructor
    · exact fun h => Or.inl (congrArg Except.error (Except.error.inj h))
    · rintro (h | ⟨a, ha, -⟩)
      · rw [Except.error.inj h]
        rfl
      · exact absurd ha nofun

lemma map_eq_ok {x : Except ε α} {f : α → β} {b : β} :
    x.map f = .ok b ↔ ∃ a, x = .ok a ∧ f a = b := by
  cases x with
  | ok a => simp [Except.map]
  | error e => simp [Except.map]

lemma mapError_eq_error {x : Except ε α} {f : ε → ε'} {e : ε'} :
    x.mapError f = .error e ↔ ∃ cause, x = .error cause ∧ f cause = e := by
  cases x with
  | ok a => exact ⟨nofun, fun ⟨_, hx, _⟩ => nomatch hx⟩
  | error cause =>
    refine ⟨fun h => ⟨cause, rfl, Except.error.inj h⟩, fun ⟨_, hx, hf⟩ => ?_⟩
    rw [Except.error.inj hx]
    exact congrArg Except.error hf

lemma mapError_eq_ok {x : Except ε α} {f : ε → ε'} {a : α} :
    x.mapError f = .ok a ↔ x = .ok a := by
  cases x with
  | ok a => exact ⟨fun h => congrArg Except.ok (Except.ok.inj h),
      fun h => congrArg Except.ok (Except.ok.inj h)⟩
  | error e => exact ⟨nofun, nofun⟩

end TaskSeries
