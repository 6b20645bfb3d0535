import TaskSeries.Proofs.Series.Latest

/-!
# Places in 32 bits

A pass counts on from the last place that is taken, and once more behind every occurrence that it makes.
So it needs a place behind all of them: it overflows exactly when there is none in 32 bits, and makes
otherwise what the same pass makes with places however great (`materialize?_eq_some_iff`). What is proved
of `materialize` is thereby proved of whatever a pass makes. A pass that makes nothing overflows only behind
the greatest place (`fits_of_nil`).
-/

namespace TaskSeries.Series

open TaskSeries.Calendar

/-! ## Counting on -/

/-- The place behind another one is the next number, as long as this is a place. -/
lemma placeBehind?_eq (place : Nat) :
    placeBehind? place = if place + 1 ≤ lastPlace then some (place + 1) else none := rfl

/-- Counting on along a list ends as many places further on as the list is long, unless it overflows. -/
lemma foldlM_placeBehind? {α : Type} (l : List α) {start : Nat} (hstart : start ≤ lastPlace) :
    l.foldlM (fun place _ => placeBehind? place) start =
      if start + l.length ≤ lastPlace then some (start + l.length) else none := by
  induction l generalizing start with
  | nil =>
    rw [List.length_nil, Nat.add_zero, if_pos hstart]
    rfl
  | cons a rest ih =>
    rw [List.foldlM_cons, placeBehind?_eq, List.length_cons]
    by_cases hnext : start + 1 ≤ lastPlace
    · have hassoc : start + 1 + rest.length = start + (rest.length + 1) := by omega
      rw [if_pos hnext, ← hassoc]
      exact ih hnext
    · rw [if_neg hnext, if_neg (by omega)]
      rfl

/-- The next free place, if it is a place at all. -/
lemma nextMask?_eq (children : List Task) :
    nextMask? children = if nextMask children ≤ lastPlace then some (nextMask children) else none := by
  unfold nextMask? nextMask
  cases (children.filterMap Task.mask).max? with
  | none => rfl
  | some last => rfl

/-- There is a next free place in front of which all places lie but the greatest. -/
lemma nextMask_le_lastPlace {children : List Task}
    (h : ∀ t ∈ children, ∀ m, t.mask = some m → m < lastPlace) : nextMask children ≤ lastPlace := by
  unfold nextMask
  cases hmax : (children.filterMap Task.mask).max? with
  | none => exact Nat.zero_le _
  | some last =>
    obtain ⟨t, ht, hm⟩ := List.mem_filterMap.mp (List.max?_eq_some_iff.mp hmax).1
    exact h t ht last hm

/-! ## Passes -/

/-- A parent has a period and a first due date, or nothing is ever made for it. -/
lemma dated_or_materialize_eq_nil (parent : Task) :
    (∃ p first, parent.recur = some p ∧ parent.due = some first) ∨
      ∀ children now horizon draw, materialize parent children now horizon draw = [] := by
  cases hrecur : parent.recur with
  | none =>
    right
    intro children now horizon draw
    unfold materialize
    rw [hrecur]
  | some p =>
    cases hdue : parent.due with
    | none =>
      right
      intro children now horizon draw
      unfold materialize
      rw [hrecur, hdue]
    | some first => exact Or.inl ⟨p, first, rfl, rfl⟩

/-- For a parent with a period and a due date a pass makes what the walk finds missing. -/
lemma materialize_of_some {parent : Task} {p : Period} {first : Instant}
    (hrecur : parent.recur = some p) (hdue : parent.due = some first) (children : List Task)
    (now : Instant) (horizon : Nat) (draw : Nat → TaskId) :
    materialize parent children now horizon draw =
      occurrences parent now draw (nextMask children)
        (missingDues p first parent.expiry now horizon mostPerPass (anchor p first children)
          (pendingAhead children now)) := by
  unfold materialize
  rw [hrecur, hdue]

section
variable {parent : Task} {children : List Task} {now : Instant} {horizon : Nat} {draw : Nat → TaskId}

lemma length_occurrences (parent : Task) (now : Instant) (draw : Nat → TaskId) (start : Nat)
    (dues : List Instant) : (occurrences parent now draw start dues).length = dues.length := by
  simp [occurrences]

/-- How many occurrences a parent is missing. -/
def lacking (parent : Task) (children : List Task) (now : Instant) (horizon : Nat) : Nat :=
  (materialize parent children now horizon fun _ => parent.id).length

/-- As many occurrences are made as are missing, whatever their ids. -/
lemma length_materialize :
    (materialize parent children now horizon draw).length = lacking parent children now horizon := by
  unfold lacking
  rcases dated_or_materialize_eq_nil parent with ⟨p, first, hrecur, hdue⟩ | hnil
  · rw [materialize_of_some hrecur hdue, materialize_of_some hrecur hdue, length_occurrences,
      length_occurrences]
  · rw [hnil, hnil]

/-- The occurrences that a parent is missing have places in 32 bits, and so has what is counted on to
behind them. Nothing is counted for a parent without a period or without a due date. -/
def Fits (parent : Task) (children : List Task) (now : Instant) (horizon : Nat) : Prop :=
  parent.recur.isSome → parent.due.isSome →
    nextMask children + lacking parent children now horizon ≤ lastPlace

/-- For a parent with a period and a due date a pass overflows exactly when what is missing does not fit. -/
lemma materialize?_of_some {p : Period} {first : Instant} (hrecur : parent.recur = some p)
    (hdue : parent.due = some first) :
    materialize? parent children now horizon draw =
      if nextMask children + lacking parent children now horizon ≤ lastPlace then
        some (materialize parent children now horizon draw)
      else none := by
  unfold materialize?
  rw [hrecur, hdue, nextMask?_eq]
  by_cases hstart : nextMask children ≤ lastPlace
  · rw [if_pos hstart]
    show (List.foldlM _ _ _ >>= fun _ => some _) = _
    rw [foldlM_placeBehind? _ hstart, length_materialize]
    split_ifs <;> rfl
  · rw [if_neg hstart, if_neg fun hfits => hstart (Nat.le_of_add_right_le hfits)]
    rfl

/-- For any other parent nothing is counted, and nothing is made. -/
lemma materialize?_of_none (h : parent.recur = none ∨ parent.due = none) :
    materialize? parent children now horizon draw =
      some (materialize parent children now horizon draw) := by
  unfold materialize? materialize
  rcases h with hrecur | hdue
  · rw [hrecur]
  · cases parent.recur with
    | none => rfl
    | some p => rw [hdue]

/-- A pass makes what it would make with places however great, as long as this fits. -/
lemma materialize?_eq_some_iff {made : List Task} :
    materialize? parent children now horizon draw = some made ↔
      Fits parent children now horizon ∧ made = materialize parent children now horizon draw := by
  unfold Fits
  rcases hrecur : parent.recur with _ | p
  · rw [materialize?_of_none (.inl hrecur), Option.some_inj]
    exact ⟨fun h => ⟨nofun, h.symm⟩, fun h => h.2.symm⟩
  · rcases hdue : parent.due with _ | first
    · rw [materialize?_of_none (.inr hdue), Option.some_inj]
      exact ⟨fun h => ⟨fun _ => nofun, h.symm⟩, fun h => h.2.symm⟩
    · rw [materialize?_of_some hrecur hdue]
      split_ifs with hfits
      · exact ⟨fun h => ⟨fun _ _ => hfits, (Option.some.inj h).symm⟩, fun h => congrArg some h.2.symm⟩
      · exact ⟨nofun, fun h => absurd (h.1 rfl rfl) hfits⟩

/-- A pass overflows exactly when what it would make does not fit. -/
lemma materialize?_eq_none_iff :
    materialize? parent children now horizon draw = none ↔ ¬ Fits parent children now horizon := by
  constructor
  · intro hnone hfits
    rw [materialize?_eq_some_iff.mpr ⟨hfits, rfl⟩] at hnone
    exact absurd hnone nofun
  · intro hfits
    refine Option.eq_none_iff_forall_ne_some.mpr fun made hmade => ?_
    exact hfits (materialize?_eq_some_iff.mp hmade).1

/-- What fits lies in front of the greatest place, unless the place of an occurrence is behind it. -/
lemma Fits.add_length_le (hfits : Fits parent children now horizon)
    (hplaces : ∀ t ∈ children, ∀ m, t.mask = some m → m < lastPlace) (draw : Nat → TaskId) :
    nextMask children + (materialize parent children now horizon draw).length ≤ lastPlace := by
  rcases dated_or_materialize_eq_nil parent with ⟨p, first, hrecur, hdue⟩ | hnil
  · rw [length_materialize]
    exact hfits (Option.isSome_of_eq_some hrecur) (Option.isSome_of_eq_some hdue)
  · rw [hnil, List.length_nil]
    exact nextMask_le_lastPlace hplaces

/-- Nothing overflows where nothing is made and every occurrence has a place to count on to. -/
lemma fits_of_nil (hplaces : ∀ t ∈ children, ∀ m, t.mask = some m → m < lastPlace)
    (hnil : materialize parent children now horizon draw = []) : Fits parent children now horizon := by
  intro _ _
  rw [← @length_materialize parent children now horizon draw, hnil, List.length_nil, Nat.add_zero]
  exact nextMask_le_lastPlace hplaces

end

end TaskSeries.Series
