import TaskSeries.Proofs.Series.CatchUp

/-!
# A series with the occurrences of a pass added

What the next pass reads of a series, once the occurrences of a pass stand behind those that were
there: the next free place, the date to go on from, and the number of occurrences ahead. A pass that
stopped of itself leaves nothing for another one at the same instant (`materialize_again`).
-/

namespace TaskSeries.Series

open TaskSeries.Calendar

section
variable {parent : Task} {now : Instant} {draw : Nat → TaskId} {start : Nat} {dues : List Instant}

/-- One more date makes one more occurrence, at the place behind and with the next id. -/
lemma occurrences_concat (due : Instant) :
    occurrences parent now draw start (dues ++ [due]) =
      occurrences parent now draw start dues ++
        [occurrence parent (draw dues.length) due (start + dues.length) now] := by
  unfold occurrences
  rw [List.zipIdx_append, List.map_append, Nat.zero_add]
  rfl

lemma mem_occurrences {t : Task} (h : t ∈ occurrences parent now draw start dues) :
    ∃ i due, dues[i]? = some due ∧ t = occurrence parent (draw i) due (start + i) now := by
  obtain ⟨i, hi⟩ := List.mem_iff_getElem?.mp h
  rw [getElem?_occurrences] at hi
  obtain ⟨due, hdue, ht⟩ := Option.map_eq_some_iff.mp hi
  exact ⟨i, due, hdue, ht.symm⟩

/-- As many new occurrences are ahead as dates are later. -/
lemma pendingAhead_occurrences (instant : Instant) :
    pendingAhead (occurrences parent now draw start dues) instant = dues.countP (instant < ·) := by
  have hahead : isAhead instant ∘ (fun x : Instant × Nat =>
      occurrence parent (draw x.2) x.1 (start + x.2) now) =
        (fun due => decide (instant < due)) ∘ Prod.fst := by
    funext x
    simp [isAhead, occurrence]
  calc pendingAhead (occurrences parent now draw start dues) instant
      = dues.zipIdx.countP (isAhead instant ∘ fun x : Instant × Nat =>
          occurrence parent (draw x.2) x.1 (start + x.2) now) := List.countP_map
    _ = (dues.zipIdx.map Prod.fst).countP (instant < ·) := by rw [hahead, List.countP_map]
    _ = dues.countP (instant < ·) := by rw [List.zipIdx_map_fst]

lemma pendingAhead_append (l l' : List Task) (instant : Instant) :
    pendingAhead (l ++ l') instant = pendingAhead l instant + pendingAhead l' instant :=
  List.countP_append

end

section
variable (parent : Task) (now : Instant) (draw : Nat → TaskId) (children : List Task)
  (dues : List Instant)

/-- The children of a parent with occurrences added at the next free places. -/
def withOccurrences : List Task :=
  children ++ occurrences parent now draw (nextMask children) dues

/-- All places are below the one behind the occurrences that were added. -/
lemma mask_lt_of_mem_withOccurrences {t : Task} {m : Nat}
    (ht : t ∈ withOccurrences parent now draw children dues) (hm : t.mask = some m) :
    m < nextMask children + dues.length := by
  rcases List.mem_append.mp ht with hold | hnew
  · have := lt_nextMask hold hm
    omega
  · obtain ⟨i, due, hi, rfl⟩ := mem_occurrences hnew
    have hlen : i < dues.length := (List.getElem?_eq_some_iff.mp hi).1
    have heq : nextMask children + i = m := Option.some.inj hm
    omega

lemma withOccurrences_concat (due : Instant) :
    withOccurrences parent now draw children (dues ++ [due]) =
      withOccurrences parent now draw children dues ++
        [occurrence parent (draw dues.length) due (nextMask children + dues.length) now] := by
  unfold withOccurrences
  rw [occurrences_concat, List.append_assoc]

/-- New occurrences take the places from the next free one on. -/
lemma nextMask_withOccurrences :
    nextMask (withOccurrences parent now draw children dues) = nextMask children + dues.length := by
  rcases List.eq_nil_or_concat dues with rfl | ⟨init, due, rfl⟩
  · simp [withOccurrences, occurrences]
  · apply nextMask_eq_of_bounds
    · exact fun t ht m hm => mask_lt_of_mem_withOccurrences parent now draw children _ ht hm
    · right
      rw [List.concat_eq_append, withOccurrences_concat]
      refine ⟨_, List.mem_append_right _ (List.mem_singleton.mpr rfl), ?_⟩
      rw [List.length_append]
      rfl

/-- The series goes on from the last date that was added, and as before where none was. -/
lemma anchor_withOccurrences (p : Period) (first : Instant) :
    anchor p first (withOccurrences parent now draw children dues) =
      dues.getLast?.or (anchor p first children) := by
  rcases List.eq_nil_or_concat dues with rfl | ⟨init, due, rfl⟩
  · simp [withOccurrences, occurrences]
  · rw [List.concat_eq_append, withOccurrences_concat, List.getLast?_concat]
    have hlatest := latest_concat_of_lt (t := occurrence parent (draw init.length) due
        (nextMask children + init.length) now) rfl
      fun c hc k hk => mask_lt_of_mem_withOccurrences parent now draw children init hc hk
    unfold anchor
    rw [hlatest]
    rfl

/-- New occurrences are ahead beside those that were. -/
lemma pendingAhead_withOccurrences (instant : Instant) :
    pendingAhead (withOccurrences parent now draw children dues) instant =
      pendingAhead children instant + dues.countP (instant < ·) := by
  unfold withOccurrences
  rw [pendingAhead_append, pendingAhead_occurrences]

end

/-! ## A second pass -/

/-- Everything that is made for a parent is an occurrence of it. -/
lemma exists_occurrence_of_mem_materialize {parent t : Task} {children : List Task} {now : Instant}
    {horizon : Nat} {draw : Nat → TaskId} (h : t ∈ materialize parent children now horizon draw) :
    ∃ id due mask, t = occurrence parent id due mask now := by
  rcases dated_or_materialize_eq_nil parent with ⟨p, first, hrecur, hdue⟩ | hnil
  · rw [materialize_of_some hrecur hdue] at h
    obtain ⟨i, due, -, ht⟩ := mem_occurrences h
    exact ⟨draw i, due, _, ht⟩
  · rw [hnil] at h
    exact absurd h List.not_mem_nil

/-- A pass that stops before its bound leaves nothing for a second pass at the same instant. -/
lemma materialize_again {parent : Task} {children : List Task} {now : Instant} {horizon : Nat}
    {draw : Nat → TaskId}
    (hfew : (materialize parent children now horizon draw).length < mostPerPass)
    (draw' : Nat → TaskId) :
    materialize parent (children ++ materialize parent children now horizon draw) now horizon draw'
      = [] := by
  rcases dated_or_materialize_eq_nil parent with ⟨p, first, hrecur, hdue⟩ | hnil
  · rw [materialize_of_some hrecur hdue] at hfew ⊢
    rw [length_occurrences] at hfew
    rw [materialize_of_some hrecur hdue]
    set dues := missingDues p first parent.expiry now horizon mostPerPass
      (anchor p first children) (pendingAhead children now) with hdues
    have hnone := missingDues_resume mostPerPass (hdues ▸ hfew)
    rw [← hdues, ← anchor_withOccurrences parent now draw children,
      ← pendingAhead_withOccurrences parent now draw children] at hnone
    show occurrences _ _ _ _ (missingDues p first parent.expiry now horizon mostPerPass
      (anchor p first (withOccurrences parent now draw children dues))
      (pendingAhead (withOccurrences parent now draw children dues) now)) = []
    rw [hnone]
    rfl
  · exact hnil _ _ _ _

end TaskSeries.Series
