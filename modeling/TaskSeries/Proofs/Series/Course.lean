import TaskSeries.Proofs.Series.GoesOn
import TaskSeries.Proofs.Series.Structure

/-!
# The course of a series

From one command to the next, occurrences are made behind those that are there, and all of them may be
changed. As long as none is moved to another date (`Continues`), the due dates of a series ascend with
the places (`Ascending.continues`), and no more occurrences are ahead than there were or than a pass
asks for (`Continues.pendingAhead_le`).
-/

namespace TaskSeries.Series

open TaskSeries.Calendar

/-! ## Changes that keep dates -/

/-- The occurrence is where it was and due when it was, and is pending only if it was. -/
structure KeepsDate (old new : Task) : Prop where
  mask : new.mask = old.mask
  due : new.due = old.due
  pending : new.status = .pending → old.status = .pending

lemma KeepsDate.refl (t : Task) : KeepsDate t t := ⟨rfl, rfl, fun h => h⟩

lemma KeepsDate.trans {t u v : Task} (h : KeepsDate t u) (h' : KeepsDate u v) : KeepsDate t v where
  mask := h'.mask.trans h.mask
  due := h'.due.trans h.due
  pending := fun hpending => h.pending (h'.pending hpending)

/-- Fewer occurrences are ahead of a later instant. -/
lemma pendingAhead_le_of_le {now later : Instant} (h : now ≤ later) (l : List Task) :
    pendingAhead l later ≤ pendingAhead l now := by
  refine List.countP_mono_left ?_
  intro t _ hahead
  unfold isAhead at hahead ⊢
  rw [Bool.and_eq_true, Option.any_eq_true] at hahead ⊢
  obtain ⟨hpending, due, hdue, hlater⟩ := hahead
  refine ⟨hpending, due, hdue, ?_⟩
  exact decide_eq_true (Instant.lt_of_le_of_lt h (of_decide_eq_true hlater))

/-! ## What a walk gives -/

section
variable {p : Period} {first : Instant} {expiry : Option Instant} {now : Instant}
  {horizon cap ahead : Nat} {last : Option Instant}

/-- The dates of a walk ascend, from the last date on that was there. -/
lemma pairwise_wholeDues :
    (wholeDues p first expiry now horizon last ahead).Pairwise (· < ·) ∧
      ∀ due ∈ wholeDues p first expiry now horizon last ahead,
        ∀ prev, last = some prev → prev < due := by
  generalize hdues : wholeDues p first expiry now horizon last ahead = dues
  induction dues generalizing last ahead with
  | nil => exact ⟨List.Pairwise.nil, fun _ hdue => absurd hdue List.not_mem_nil⟩
  | cons due rest ih =>
    -- the rest of the walk goes on from this date
    obtain ⟨-, hnext, -, hrest⟩ := wholeDues_eq_cons_iff.mp hdues
    obtain ⟨hpairwise, hbehind⟩ := ih hrest
    have hlater := (nextDue_eq_some_iff.mp hnext).2
    have hall : ∀ d ∈ rest, due < d := fun d hd => hbehind d hd due rfl
    refine ⟨List.pairwise_cons.mpr ⟨hall, hpairwise⟩, ?_⟩
    rw [List.forall_mem_cons]
    refine ⟨hlater, ?_⟩
    intro d hd prev hprev
    exact Instant.lt_trans (hlater prev hprev) (hall d hd)

/-- A walk stops as soon as enough is ahead. -/
lemma countP_wholeDues_le :
    ahead + (wholeDues p first expiry now horizon last ahead).countP (now < ·) ≤
      max horizon ahead := by
  generalize hdues : wholeDues p first expiry now horizon last ahead = dues
  induction dues generalizing last ahead with
  | nil => exact Nat.le_max_right _ _
  | cons due rest ih =>
    obtain ⟨hroom, -, -, hrest⟩ := wholeDues_eq_cons_iff.mp hdues
    have hle := ih hrest
    rw [List.countP_cons]
    simp only [decide_eq_true_eq]
    split_ifs at hle ⊢ <;> omega

/-- The dates of a bounded walk ascend, from the last date on that was there. -/
lemma pairwise_missingDues :
    (missingDues p first expiry now horizon cap last ahead).Pairwise (· < ·) ∧
      ∀ due ∈ missingDues p first expiry now horizon cap last ahead,
        ∀ prev, last = some prev → prev < due := by
  obtain ⟨hpairwise, hbehind⟩ := @pairwise_wholeDues p first expiry now horizon ahead last
  rw [missingDues_eq_take]
  exact ⟨hpairwise.sublist (List.take_sublist _ _),
    fun due hdue => hbehind due (List.mem_of_mem_take hdue)⟩

end

/-- New occurrences are due at the dates they are made for. -/
lemma map_due_occurrences (parent : Task) (now : Instant) (draw : Nat → TaskId) (start : Nat)
    (dues : List Instant) :
    (occurrences parent now draw start dues).map Task.due = dues.map some := by
  unfold occurrences
  rw [List.map_map]
  calc dues.zipIdx.map (Task.due ∘ fun x => occurrence parent (draw x.2) x.1 (start + x.2) now)
      = (dues.zipIdx.map Prod.fst).map some := by rw [List.map_map]; rfl
    _ = dues.map some := by rw [List.zipIdx_map_fst]

/-- With what a pass makes, no more is ahead than there was or than the pass asks for. -/
lemma pendingAhead_materialize_le (parent : Task) (children : List Task) (now : Instant)
    (horizon : Nat) (draw : Nat → TaskId) :
    pendingAhead children now + pendingAhead (materialize parent children now horizon draw) now ≤
      max horizon (pendingAhead children now) := by
  rcases dated_or_materialize_eq_nil parent with ⟨p, first, hrecur, hdue⟩ | hnil
  · rw [materialize_of_some hrecur hdue, pendingAhead_occurrences, missingDues_eq_take]
    refine Nat.le_trans (Nat.add_le_add_left ?_ _)
      (@countP_wholeDues_le p first parent.expiry now horizon _ (anchor p first children))
    exact (List.take_sublist _ _).countP_le
  · rw [hnil]
    exact Nat.le_max_right _ _

/-! ## Ascending due dates -/

/-- Every occurrence has a due date, and each is due later than those before it in the list. -/
def Ascending (children : List Task) : Prop :=
  ∃ dues : List Instant, children.map Task.due = dues.map some ∧ dues.Pairwise (· < ·)

lemma ascending_nil : Ascending [] := ⟨[], rfl, List.Pairwise.nil⟩

/-- In a series whose dates ascend every occurrence has one. -/
lemma Ascending.exists_due {children : List Task} (h : Ascending children) {t : Task}
    (ht : t ∈ children) : ∃ due, t.due = some due := by
  obtain ⟨dues, hdues, -⟩ := h
  have hmem : t.due ∈ dues.map some := by
    rw [← hdues]
    exact List.mem_map_of_mem ht
  obtain ⟨due, -, hdue⟩ := List.mem_map.mp hmem
  exact ⟨due, hdue.symm⟩

/-- Changes that keep dates keep them in order. -/
lemma Ascending.map {children : List Task} (h : Ascending children) {g : Task → Task}
    (hg : ∀ t ∈ children, (g t).due = t.due) : Ascending (children.map g) := by
  obtain ⟨dues, hdues, hpairwise⟩ := h
  refine ⟨dues, ?_, hpairwise⟩
  rw [List.map_map, ← hdues]
  exact List.map_congr_left hg

section
variable {tasks children : List Task} {id : TaskId} (h : Structured tasks)
include h

/-- In a series whose dates ascend, a greater place means a later due date. -/
lemma Ascending.lt_of_mask_lt (hasc : Ascending (childrenIn tasks id)) {t u : Task}
    (ht : t ∈ childrenIn tasks id) (hu : u ∈ childrenIn tasks id) {i j : Nat} {d e : Instant}
    (hi : t.mask = some i) (hj : u.mask = some j) (hlt : i < j) (hd : t.due = some d)
    (he : u.due = some e) : d < e := by
  obtain ⟨dues, hdues, hpairwise⟩ := hasc
  -- the place of an occurrence is its index in the list
  have hindex : ∀ v ∈ childrenIn tasks id, ∀ k due, v.mask = some k → v.due = some due →
      dues[k]? = some due := by
    intro v hv k due hmask hdue
    obtain ⟨n, hn⟩ := List.mem_iff_getElem?.mp hv
    have hmasks : (some n : Option Nat) = v.mask := by
      have hlen : n < (childrenIn tasks id).length := (List.getElem?_eq_some_iff.mp hn).1
      have hplace := congrArg (·[n]?) (h.dense id)
      simp only [List.getElem?_map, hn, List.getElem?_range hlen, Option.map_some] at hplace
      exact (Option.some.inj hplace).symm
    rw [hmask] at hmasks
    obtain rfl := Option.some.inj hmasks
    have hdate := congrArg (·[n]?) hdues
    simp only [List.getElem?_map, hn, Option.map_some, hdue] at hdate
    obtain ⟨due', hdue', heq⟩ := Option.map_eq_some_iff.mp hdate.symm
    rw [hdue', Option.some.inj heq]
  obtain ⟨hi', hdi⟩ := List.getElem?_eq_some_iff.mp (hindex t ht i d hi hd)
  obtain ⟨hj', hej⟩ := List.getElem?_eq_some_iff.mp (hindex u hu j e hj he)
  rw [← hdi, ← hej]
  exact List.pairwise_iff_getElem.mp hpairwise i j hi' hj' hlt

/-- A series whose dates ascend goes on from the last of them. -/
lemma anchor_eq_getLast? {dues : List Instant}
    (hdues : (childrenIn tasks id).map Task.due = dues.map some)
    (hperm : children.Perm (childrenIn tasks id)) (p : Period) (first : Instant) :
    anchor p first children = dues.getLast? := by
  have hmasks := h.filterMap_mask id
  have hdense := h.dense id
  have hnodup : ((childrenIn tasks id).filterMap Task.mask).Nodup := by
    rw [hmasks]
    exact List.nodup_range
  rw [anchor_perm hperm ((hperm.filterMap Task.mask).nodup_iff.mpr hnodup)]
  rcases List.eq_nil_or_concat (childrenIn tasks id) with hnil | ⟨init, t, hconcat⟩
  · rw [hnil, List.map_nil, eq_comm, List.map_eq_nil_iff] at hdues
    rw [hnil, hdues]
    rfl
  · rw [List.concat_eq_append] at hconcat
    rw [hconcat, List.length_append, List.length_singleton, List.range_succ, List.map_append,
      List.map_append] at hdense
    -- the places are dense, so that the last occurrence has the greatest one
    obtain ⟨hinit, hlast⟩ := List.append_inj' hdense rfl
    have hmask : t.mask = some init.length := (List.cons.inj hlast).1
    have hbelow : ∀ c ∈ init, ∀ k, c.mask = some k → k < init.length := by
      intro c hc k hk
      have hmem : c.mask ∈ init.map Task.mask := List.mem_map_of_mem hc
      rw [hinit, hk, List.mem_map] at hmem
      obtain ⟨n, hn, heq⟩ := hmem
      rw [← Option.some.inj heq]
      exact List.mem_range.mp hn
    have hdue : (dues.map some).getLast? = some t.due := by
      rw [← hdues, hconcat, List.map_append, List.map_singleton, List.getLast?_concat]
    rw [List.getLast?_map, Option.map_eq_some_iff] at hdue
    obtain ⟨due, hgetLast, heq⟩ := hdue
    unfold anchor
    rw [hconcat, latest_concat_of_lt hmask hbelow, hgetLast]
    show (t.due <|> _) = _
    rw [← heq]
    rfl

/-- What a pass makes for a series is due behind all that was there. -/
lemma Ascending.append_materialize (hasc : Ascending (childrenIn tasks id))
    (hperm : children.Perm (childrenIn tasks id)) (parent : Task) (now : Instant) (horizon : Nat)
    (draw : Nat → TaskId) :
    Ascending (childrenIn tasks id ++ materialize parent children now horizon draw) := by
  rcases dated_or_materialize_eq_nil parent with ⟨p, first, hrecur, hdue⟩ | hnil
  · obtain ⟨dues, hdues, hpairwise⟩ := hasc
    rw [materialize_of_some hrecur hdue, anchor_eq_getLast? h hdues hperm]
    obtain ⟨hnew, hbehind⟩ := @pairwise_missingDues p first parent.expiry now horizon mostPerPass
      (pendingAhead children now) dues.getLast?
    refine ⟨dues ++ missingDues p first parent.expiry now horizon mostPerPass dues.getLast?
      (pendingAhead children now), ?_, ?_⟩
    · rw [List.map_append, List.map_append, hdues, map_due_occurrences]
    · rw [List.pairwise_append]
      refine ⟨hpairwise, hnew, ?_⟩
      intro d hd e he
      -- the last date that was there is between any old and any new one
      rcases List.eq_nil_or_concat dues with rfl | ⟨init, last, rfl⟩
      · exact absurd hd List.not_mem_nil
      · rw [List.concat_eq_append] at hd hpairwise hbehind he
        have hlast : last < e := hbehind e he last List.getLast?_concat
        rcases List.mem_append.mp hd with hinit | hend
        · have hlt := (List.pairwise_append.mp hpairwise).2.2 d hinit last (List.mem_singleton_self _)
          exact Instant.lt_trans hlt hlast
        · rw [List.mem_singleton.mp hend]
          exact hlast
  · rw [hnil, List.append_nil]
    exact hasc

end

/-! ## From one call to the next -/

/-- The occurrences of a parent after a command: behind the old ones stands what a pass made for the
parent, if there was one, and none was moved to another date. -/
def Continues (tasks : List Task) (id : TaskId) (now : Instant) (horizon : Nat) (new : List Task) :
    Prop :=
  ∃ made g, new = (childrenIn tasks id ++ made).map g ∧
    (∀ t ∈ childrenIn tasks id ++ made, KeepsDate t (g t)) ∧
    (made = [] ∨ ∃ parent children draw, children.Perm (childrenIn tasks id) ∧
      made = materialize parent children now horizon draw)

section
variable {tasks new : List Task} {id : TaskId} {now : Instant} {horizon : Nat}

lemma continues_self (tasks : List Task) (id : TaskId) (now : Instant) (horizon : Nat) :
    Continues tasks id now horizon (childrenIn tasks id) := by
  refine ⟨[], fun t => t, ?_, fun t _ => KeepsDate.refl t, Or.inl rfl⟩
  rw [List.append_nil, List.map_id']

lemma Continues.map (h : Continues tasks id now horizon new) {g : Task → Task}
    (hg : ∀ t ∈ new, KeepsDate t (g t)) : Continues tasks id now horizon (new.map g) := by
  obtain ⟨made, f, rfl, hf, hmade⟩ := h
  refine ⟨made, g ∘ f, List.map_map, ?_, hmade⟩
  intro t ht
  exact (hf t ht).trans (hg (f t) (List.mem_map_of_mem ht))

/-- The dates of a series go on ascending. -/
lemma Ascending.continues (hasc : Ascending (childrenIn tasks id)) (hs : Structured tasks)
    (h : Continues tasks id now horizon new) : Ascending new := by
  obtain ⟨made, g, rfl, hg, hmade⟩ := h
  refine Ascending.map ?_ fun t ht => (hg t ht).due
  rcases hmade with rfl | ⟨parent, children, draw, hperm, rfl⟩
  · rw [List.append_nil]
    exact hasc
  · exact hasc.append_materialize hs hperm parent now horizon draw

end

end TaskSeries.Series
