import TaskSeries.Proofs.Ends
import TaskSeries.Proofs.Series.Integrity

/-!
# The report and the checks

The checks stop at the first item that comes a second time in one walk over all tasks, and the report
collects what comes again, the places series by series. Both find a violation in the same lists of
tasks, and the same one where an id comes twice (`Integrity.agrees_diagnose`). The same theorem says
what the report shows of every series: where the next occurrence belongs, and the mark of each place.
-/

namespace TaskSeries.Integrity

open TaskSeries.Series

/-! ## Items that come again -/

section
variable {α : Type} [BEq α] [LawfulBEq α] [Hashable α] {l : List α} {a : α}

/-- An element is reported when it was seen before or comes twice. -/
lemma mem_repeatsFrom_iff (seen : Std.HashSet α) :
    a ∈ repeatsFrom seen l ↔ a ∈ seen ∧ a ∈ l ∨ 2 ≤ l.count a := by
  induction l generalizing seen with
  | nil => simp [repeatsFrom]
  | cons b l ih =>
    have hcount : a ∈ l ↔ 1 ≤ l.count a := List.count_pos_iff.symm
    rw [repeatsFrom]
    by_cases hb : seen.contains b = true
    · rw [if_pos hb, List.mem_cons, ih]
      rw [Std.HashSet.contains_iff_mem] at hb
      by_cases hab : a = b
      · subst hab
        simp [hb]
      · rw [List.count_cons_of_ne (Ne.symm hab), List.mem_cons]
        simp only [hab, false_or]
    · rw [if_neg hb, ih, Std.HashSet.mem_insert, beq_iff_eq]
      rw [Std.HashSet.contains_iff_mem] at hb
      by_cases hab : a = b
      · subst hab
        -- the first one is not listed, so that one more makes two
        rw [List.count_cons_self]
        simp only [hb, false_and, true_or, true_and, false_or, hcount]
        omega
      · rw [List.count_cons_of_ne (Ne.symm hab), List.mem_cons]
        simp only [hab, Ne.symm hab, false_or]

/-- The items that come again are those that come twice. -/
lemma mem_repeats_iff : a ∈ repeats l ↔ 2 ≤ l.count a := by
  unfold repeats
  rw [mem_repeatsFrom_iff]
  simp

/-- An element is kept when it was not seen before. -/
lemma mem_distinctFrom_iff (seen : Std.HashSet α) : a ∈ distinctFrom seen l ↔ a ∈ l ∧ a ∉ seen := by
  induction l generalizing seen with
  | nil => simp [distinctFrom]
  | cons b l ih =>
    rw [distinctFrom]
    by_cases hb : seen.contains b = true
    · rw [if_pos hb, ih, List.mem_cons]
      rw [Std.HashSet.contains_iff_mem] at hb
      by_cases hab : a = b
      · subst hab
        simp [hb]
      · simp only [hab, false_or]
    · rw [if_neg hb, List.mem_cons, List.mem_cons, ih, Std.HashSet.mem_insert, beq_iff_eq]
      rw [Std.HashSet.contains_iff_mem] at hb
      by_cases hab : a = b
      · subst hab
        simp [hb]
      · simp only [hab, Ne.symm hab, false_or]

lemma nodup_distinctFrom (seen : Std.HashSet α) : (distinctFrom seen l).Nodup := by
  induction l generalizing seen with
  | nil => exact List.nodup_nil
  | cons b l ih =>
    rw [distinctFrom]
    split_ifs
    · exact ih seen
    · rw [List.nodup_cons, mem_distinctFrom_iff]
      exact ⟨fun hmem => hmem.2 Std.HashSet.mem_insert_self, ih _⟩

lemma mem_distinct_iff : a ∈ distinct l ↔ a ∈ l := by
  unfold distinct
  rw [mem_distinctFrom_iff]
  simp

lemma nodup_distinct : (distinct l).Nodup := nodup_distinctFrom ∅

omit [LawfulBEq α] in
/-- The first item has not occurred before. -/
lemma exists_distinct_cons (a : α) (l : List α) : ∃ rest, distinct (a :: l) = a :: rest := by
  unfold distinct
  rw [distinctFrom, if_neg (by simp)]
  exact ⟨_, rfl⟩

lemma distinct_eq_nil_iff : distinct l = [] ↔ l = [] := by
  rw [List.eq_nil_iff_forall_not_mem, List.eq_nil_iff_forall_not_mem]
  simp only [mem_distinct_iff]

end

variable {tasks : List Task} {p : TaskId} {m : Nat}

/-! ## The checks -/

/-- The check of ids passes exactly when all ids are distinct. -/
lemma checkIds_eq_ok_iff : checkIds tasks = .ok () ↔ (tasks.map Task.id).Nodup := by
  rw [← repeats_eq_nil_iff]
  unfold checkIds
  cases repeats (tasks.map Task.id) with
  | nil => exact ⟨fun _ => rfl, fun _ => rfl⟩
  | cons id rest => exact ⟨nofun, nofun⟩

/-- The check of places passes exactly when no place is taken twice. -/
lemma checkMasks_eq_ok_iff : checkMasks tasks = .ok () ↔ (tasks.filterMap place?).Nodup := by
  rw [← repeats_eq_nil_iff]
  unfold checkMasks
  cases repeats (tasks.filterMap place?) with
  | nil => exact ⟨fun _ => rfl, fun _ => rfl⟩
  | cons x rest => exact ⟨nofun, nofun⟩

lemma check_eq_ok_iff :
    check tasks = .ok () ↔ checkIds tasks = .ok () ∧ checkMasks tasks = .ok () := by
  unfold check
  rw [bind_eq_ok]
  exact ⟨fun ⟨_, hids, hmasks⟩ => ⟨hids, hmasks⟩, fun ⟨hids, hmasks⟩ => ⟨(), hids, hmasks⟩⟩

/-- A place that the check reports is taken twice. -/
lemma two_le_count_of_checkMasks (h : checkMasks tasks = .error (.duplicateMask p m)) :
    2 ≤ (tasks.filterMap place?).count (p, m) := by
  unfold checkMasks at h
  cases hrepeats : repeats (tasks.filterMap place?) with
  | nil =>
    rw [hrepeats] at h
    exact absurd h nofun
  | cons x rest =>
    rw [hrepeats] at h
    obtain ⟨hp, hm⟩ := Fault.duplicateMask.inj (Except.error.inj h)
    rw [← mem_repeats_iff, hrepeats, ← hp, ← hm]
    exact List.mem_cons_self

/-- What the check reports has been found by one of its parts. -/
lemma checkMasks_of_check (h : check tasks = .error (.duplicateMask p m)) :
    checkMasks tasks = .error (.duplicateMask p m) := by
  unfold check checkIds at h
  cases hrepeats : repeats (tasks.map Task.id) with
  | nil =>
    rw [hrepeats] at h
    exact h
  | cons id rest =>
    rw [hrepeats] at h
    exact absurd (Except.error.inj h) nofun

/-! ## The places of one series -/

/-- The occurrences of a parent that have a place are among all its occurrences. -/
lemma placedChildren_eq (tasks : List Task) (p : TaskId) :
    placedChildren tasks p = (childrenIn tasks p).filter (·.mask.isSome) := by
  unfold placedChildren childrenIn
  rw [List.filter_filter]
  exact List.filter_congr fun t _ => Bool.and_comm _ _

lemma filterMap_mask_placedChildren (tasks : List Task) (p : TaskId) :
    (placedChildren tasks p).filterMap Task.mask = (childrenIn tasks p).filterMap Task.mask := by
  rw [placedChildren_eq, List.filterMap_filter]
  refine List.filterMap_congr fun t _ => ?_
  cases t.mask <;> rfl

/-- The next place is told by those children that have one. -/
lemma nextMask_placedChildren (tasks : List Task) (p : TaskId) :
    nextMask (placedChildren tasks p) = nextMask (childrenIn tasks p) := by
  unfold nextMask
  rw [filterMap_mask_placedChildren]

lemma filter_placedChildren (tasks : List Task) (p : TaskId) (i : Nat) :
    (placedChildren tasks p).filter (·.mask == some i) =
      (childrenIn tasks p).filter (·.mask == some i) := by
  rw [placedChildren_eq, List.filter_filter]
  refine List.filter_congr fun t _ => ?_
  cases t.mask <;> simp

/-- A place is taken as often among all tasks as in its series. -/
lemma count_mask_placedChildren (tasks : List Task) (p : TaskId) (m : Nat) :
    ((placedChildren tasks p).filterMap Task.mask).count m =
      (tasks.filterMap place?).count (p, m) := by
  rw [filterMap_mask_placedChildren, List.count_filterMap, List.count_filterMap]
  unfold childrenIn
  rw [List.countP_filter]
  refine List.countP_congr fun t _ => ?_
  unfold place?
  cases t.parent <;> cases t.mask <;> simp [and_comm]

/-! ## The series of a report -/

/-- The series that are reported are those of recurring parents and of tasks with a place. -/
lemma mem_seriesParents : p ∈ seriesParents tasks ↔
    p ∈ (tasks.filter Task.isRecurringParent).map Task.id ∨
      p ∈ (tasks.filterMap place?).map Prod.fst := by
  unfold seriesParents
  rw [(List.mergeSort_perm _ _).mem_iff, mem_distinct_iff, List.mem_append]

/-- A series is that of a recurring parent, or one that an occurrence with a place names. -/
lemma mem_seriesParents_iff : p ∈ seriesParents tasks ↔
    (∃ t ∈ tasks, t.isRecurringParent = true ∧ t.id = p) ∨
      ∃ t ∈ tasks, t.parent = some p ∧ t.mask.isSome = true := by
  have hnamed : p ∈ (tasks.filterMap place?).map Prod.fst ↔
      ∃ t ∈ tasks, t.parent = some p ∧ t.mask.isSome = true := by
    rw [List.mem_map]
    constructor
    · rintro ⟨x, hx, rfl⟩
      obtain ⟨t, ht, hplace⟩ := List.mem_filterMap.mp hx
      refine ⟨t, ht, ?_⟩
      unfold place? at hplace
      split at hplace
      · rename_i hparent hmask
        obtain rfl := Option.some.inj hplace
        exact ⟨hparent, by rw [hmask]; rfl⟩
      · exact absurd hplace nofun
    · rintro ⟨t, ht, hparent, hmask⟩
      obtain ⟨m, hm⟩ := Option.isSome_iff_exists.mp hmask
      refine ⟨(p, m), List.mem_filterMap.mpr ⟨t, ht, ?_⟩, rfl⟩
      unfold place?
      rw [hparent, hm]
  rw [mem_seriesParents, hnamed, List.mem_map]
  simp only [List.mem_filter, and_assoc]

/-- No series is reported twice. -/
lemma nodup_seriesParents : (seriesParents tasks).Nodup := by
  unfold seriesParents
  exact (List.mergeSort_perm _ _).nodup_iff.mpr nodup_distinct

/-- The report lists exactly the places that are taken twice. -/
lemma mem_duplicateMasks_iff {x : TaskId × Nat} :
    x ∈ (diagnose tasks).duplicateMasks ↔ 2 ≤ (tasks.filterMap place?).count x := by
  obtain ⟨p, m⟩ := x
  show (p, m) ∈ (seriesParents tasks).flatMap _ ↔ _
  rw [List.mem_flatMap, ← count_mask_placedChildren, ← mem_repeats_iff]
  constructor
  · rintro ⟨q, -, hmem⟩
    obtain ⟨n, hn, hpair⟩ := List.mem_map.mp hmem
    obtain ⟨rfl, rfl⟩ := Prod.mk.inj hpair
    exact hn
  · intro hmem
    -- a place that is taken is the place of an occurrence, which names the parent
    have hcount := mem_repeats_iff.mp hmem
    rw [count_mask_placedChildren] at hcount
    have hplace : (p, m) ∈ tasks.filterMap place? := List.count_pos_iff.mp (by omega)
    exact ⟨p, mem_seriesParents.mpr (.inr (List.mem_map_of_mem hplace)), List.mem_map_of_mem hmem⟩

/-- No duplicate id is reported exactly when all ids are distinct. -/
lemma duplicateIds_eq_nil_iff : (diagnose tasks).duplicateIds = [] ↔ (tasks.map Task.id).Nodup := by
  show distinct _ = [] ↔ _
  rw [distinct_eq_nil_iff, repeats_eq_nil_iff]

/-- No duplicate place is reported exactly when no place is taken twice. -/
lemma duplicateMasks_eq_nil_iff :
    (diagnose tasks).duplicateMasks = [] ↔ (tasks.filterMap place?).Nodup := by
  rw [← repeats_eq_nil_iff, List.eq_nil_iff_forall_not_mem, List.eq_nil_iff_forall_not_mem]
  simp only [mem_duplicateMasks_iff, mem_repeats_iff]

/-! ## The marks of a series -/

/-- The marks with that of one more occurrence at its place. -/
def setMark (marks : Array Char) (t : Task) : Array Char :=
  match t.mask with
  | some m => marks.setIfInBounds m t.status.mark
  | none => marks

lemma size_setMark (marks : Array Char) (t : Task) : (setMark marks t).size = marks.size := by
  unfold setMark
  cases t.mask with
  | none => rfl
  | some m => exact Array.size_setIfInBounds

lemma size_foldl_setMark (children : List Task) (marks : Array Char) :
    (children.foldl setMark marks).size = marks.size := by
  induction children generalizing marks with
  | nil => rfl
  | cons t children ih => rw [List.foldl_cons, ih, size_setMark]

/-- The mark at a place is that of the last occurrence there. -/
lemma getElem?_foldl_setMark (children : List Task) {size i : Nat} (hi : i < size) :
    (children.foldl setMark (Array.replicate size ' '))[i]? =
      some ((children.filter (·.mask == some i)).getLast?.elim ' ' (·.status.mark)) := by
  induction children using List.reverseRecOn with
  | nil =>
    rw [List.foldl_nil, Array.getElem?_replicate, if_pos hi]
    rfl
  | append_singleton children t ih =>
    rw [List.foldl_append, List.foldl_cons, List.foldl_nil, List.filter_append]
    have hsize := size_foldl_setMark children (Array.replicate size ' ')
    rw [Array.size_replicate] at hsize
    by_cases ht : t.mask = some i
    · have hlast : [t].filter (·.mask == some i) = [t] := by simp [ht]
      rw [hlast, List.getLast?_concat]
      unfold setMark
      rw [ht]
      exact Array.getElem?_setIfInBounds_self_of_lt (hsize.symm ▸ hi)
    · -- an occurrence at another place leaves the mark alone
      have hnone : [t].filter (·.mask == some i) = [] := by simp [ht]
      rw [hnone, List.append_nil, ← ih]
      unfold setMark
      cases hmask : t.mask with
      | none => rfl
      | some m =>
        rw [hmask, Option.some.injEq] at ht
        exact Array.getElem?_setIfInBounds_ne ht

lemma toList_marksOf (children : List Task) (size : Nat) :
    (marksOf children size).toList = (children.foldl setMark (Array.replicate size ' ')).toList :=
  String.toList_ofList

/-- The row of a series says where the next occurrence belongs, and shows the marks of the places before
it. -/
structure Shows (tasks : List Task) (row : SeriesSummary) : Prop where
  nextMask : row.nextMask = nextMask (childrenIn tasks row.parent)
  inBounds : ∀ t ∈ childrenIn tasks row.parent, ∀ m, t.mask = some m → m < row.nextMask
  length : row.marks.length = row.nextMask
  /-- A space stands where no occurrence is. -/
  blank : ∀ i < row.nextMask, row.marks.toList[i]? = some ' ' ↔
    ∀ t ∈ childrenIn tasks row.parent, t.mask ≠ some i
  /-- Of several occurrences at a place, the last one is shown. -/
  mark : ∀ i t, ((childrenIn tasks row.parent).filter (·.mask == some i)).getLast? = some t →
    row.marks.toList[i]? = some t.status.mark

/-- Every status has a mark that can be seen. -/
lemma mark_ne_blank (status : Status) : status.mark ≠ ' ' := by
  cases status <;> decide

/-- The summary of a series shows what it should. -/
lemma shows_summary (tasks : List Task) (p : TaskId) : Shows tasks (summary tasks p) := by
  have hnext : (summary tasks p).nextMask = nextMask (childrenIn tasks p) :=
    nextMask_placedChildren tasks p
  have hmarks : ∀ i < (summary tasks p).nextMask, (summary tasks p).marks.toList[i]? =
      some (((childrenIn tasks p).filter (·.mask == some i)).getLast?.elim ' ' (·.status.mark)) := by
    intro i hi
    rw [← filter_placedChildren, ← getElem?_foldl_setMark _ hi]
    show (marksOf _ _).toList[i]? = _
    rw [toList_marksOf, Array.getElem?_toList]
    rfl
  have hbounds : ∀ t ∈ childrenIn tasks p, ∀ m, t.mask = some m → m < (summary tasks p).nextMask := by
    intro t ht m hm
    rw [hnext]
    exact lt_nextMask ht hm
  refine ⟨hnext, hbounds, ?_, ?_, ?_⟩
  · show (marksOf _ _).length = _
    rw [← String.length_toList, toList_marksOf, Array.length_toList, size_foldl_setMark,
      Array.size_replicate]
    rfl
  · intro i hi
    rw [hmarks i hi]
    cases hlast : ((childrenIn tasks p).filter (·.mask == some i)).getLast? with
    | none =>
      rw [List.getLast?_eq_none_iff, List.filter_eq_nil_iff] at hlast
      exact ⟨fun _ t ht hm => hlast t ht (beq_iff_eq.mpr hm), fun _ => rfl⟩
    | some t =>
      obtain ⟨ht, hm⟩ := List.mem_filter.mp (List.mem_of_getLast? hlast)
      exact ⟨fun h => absurd (Option.some.inj h) (mark_ne_blank t.status),
        fun h => absurd (beq_iff_eq.mp hm) (h t ht)⟩
  · intro i t hlast
    obtain ⟨ht, hm⟩ := List.mem_filter.mp (List.mem_of_getLast? hlast)
    have hmark := hmarks i (hbounds t ht i (beq_iff_eq.mp hm))
    rwa [show childrenIn tasks p = childrenIn tasks (summary tasks p).parent from rfl, hlast] at hmark

/-! ## The whole report -/

lemma violation?_eq_none_iff {r : Report} :
    r.violation? = none ↔ r.duplicateIds = [] ∧ r.duplicateMasks = [] := by
  unfold Report.violation?
  cases r.duplicateIds <;> cases r.duplicateMasks <;> simp

/-- A report without violation is its own result. -/
lemma result_eq_ok_iff {r r' : Report} : r.result = .ok r' ↔ r.violation? = none ∧ r' = r := by
  unfold Report.result
  cases r.violation? with
  | none => simp [eq_comm]
  | some f => simp

/-- A place that the result reports is listed. -/
lemma mem_of_result {r : Report} (h : r.result = .error (.duplicateMask p m)) :
    (p, m) ∈ r.duplicateMasks := by
  unfold Report.result Report.violation? at h
  cases hids : r.duplicateIds with
  | cons id rest =>
    rw [hids] at h
    exact absurd (Except.error.inj h) nofun
  | nil =>
    cases hmasks : r.duplicateMasks with
    | nil =>
      rw [hids, hmasks] at h
      exact absurd h nofun
    | cons x rest =>
      rw [hids, hmasks] at h
      obtain ⟨hp, hm⟩ := Fault.duplicateMask.inj (Except.error.inj h)
      rw [← hp, ← hm]
      exact List.mem_cons_self

/-- Where an id comes twice, the report, the check of the ids and the whole check find the same one. -/
lemma exists_duplicateId {id : TaskId} (h : 2 ≤ (tasks.map Task.id).count id) :
    ∃ first, 2 ≤ (tasks.map Task.id).count first ∧
      checkIds tasks = .error (.duplicateId first) ∧ check tasks = .error (.duplicateId first) ∧
      (diagnose tasks).result = .error (.duplicateId first) := by
  cases hrepeats : repeats (tasks.map Task.id) with
  | nil =>
    rw [← mem_repeats_iff, hrepeats] at h
    exact absurd h List.not_mem_nil
  | cons first rest =>
    have hids : checkIds tasks = .error (.duplicateId first) := by
      unfold checkIds
      rw [hrepeats]
    refine ⟨first, ?_, hids, ?_, ?_⟩
    · rw [← mem_repeats_iff, hrepeats]
      exact List.mem_cons_self
    · unfold check
      rw [hids]
      rfl
    · obtain ⟨others, hdistinct⟩ := exists_distinct_cons first rest
      unfold Report.result Report.violation? diagnose
      rw [hrepeats, hdistinct]

/-- A report over tasks agrees with the checks, and shows their ids and their series as they are. -/
structure Agrees (tasks : List Task) (report : Report) : Prop where
  result_eq_ok_iff : (∃ r, report.result = .ok r) ↔
    checkIds tasks = .ok () ∧ checkMasks tasks = .ok ()
  check_eq_ok_iff : check tasks = .ok () ↔ checkIds tasks = .ok () ∧ checkMasks tasks = .ok ()
  result_self : ∀ r, report.result = .ok r → r = report
  /-- Where an id comes twice, the same id is reported. -/
  duplicateId : ∀ id, 2 ≤ (tasks.map Task.id).count id → ∃ first,
    2 ≤ (tasks.map Task.id).count first ∧ checkIds tasks = .error (.duplicateId first) ∧
      check tasks = .error (.duplicateId first) ∧ report.result = .error (.duplicateId first)
  /-- A place that is reported is taken twice. -/
  duplicateMask : ∀ p m, (checkMasks tasks = .error (.duplicateMask p m) ∨
    check tasks = .error (.duplicateMask p m) ∨ report.result = .error (.duplicateMask p m)) →
      2 ≤ (tasks.filterMap place?).count (p, m)
  nodup_duplicateIds : report.duplicateIds.Nodup
  mem_duplicateIds_iff : ∀ id, id ∈ report.duplicateIds ↔ 2 ≤ (tasks.map Task.id).count id
  mem_duplicateMasks_iff : ∀ x, x ∈ report.duplicateMasks ↔ 2 ≤ (tasks.filterMap place?).count x
  /-- There is one row for each series. -/
  nodup_parents : (report.series.map SeriesSummary.parent).Nodup
  mem_parents_iff : ∀ p, p ∈ report.series.map SeriesSummary.parent ↔
    (∃ t ∈ tasks, t.isRecurringParent = true ∧ t.id = p) ∨
      ∃ t ∈ tasks, t.parent = some p ∧ t.mask.isSome = true
  shows : ∀ row ∈ report.series, Shows tasks row

/-- Whatever the tasks are, the report over them agrees with the checks, and shows every series as it
is. -/
theorem agrees_diagnose (tasks : List Task) : Agrees tasks (diagnose tasks) := by
  have hparents : (diagnose tasks).series.map SeriesSummary.parent = seriesParents tasks := by
    show ((seriesParents tasks).map (summary tasks)).map _ = _
    rw [List.map_map]
    exact List.map_id _
  refine ⟨?_, check_eq_ok_iff, ?_, fun id => exists_duplicateId, ?_, nodup_distinct, ?_,
    fun x => mem_duplicateMasks_iff, ?_, ?_, ?_⟩
  · -- each of the lists is empty exactly where the check finds nothing
    simp only [result_eq_ok_iff, exists_eq_right]
    rw [violation?_eq_none_iff, duplicateIds_eq_nil_iff, duplicateMasks_eq_nil_iff,
      checkIds_eq_ok_iff, checkMasks_eq_ok_iff]
  · exact fun r hr => (result_eq_ok_iff.mp hr).2
  · rintro p m (hmasks | hcheck | hresult)
    · exact two_le_count_of_checkMasks hmasks
    · exact two_le_count_of_checkMasks (checkMasks_of_check hcheck)
    · exact mem_duplicateMasks_iff.mp (mem_of_result hresult)
  · intro id
    show id ∈ distinct _ ↔ _
    rw [mem_distinct_iff, mem_repeats_iff]
  · rw [hparents]
    exact nodup_seriesParents
  · intro p
    rw [hparents]
    exact mem_seriesParents_iff
  · intro row hrow
    obtain ⟨p, -, rfl⟩ := List.mem_map.mp hrow
    exact shows_summary tasks p

end TaskSeries.Integrity
