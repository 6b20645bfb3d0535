import Mathlib.Data.List.Induction
import Mathlib.Tactic.Lemma
import TaskSeries.Series.Occurrences

/-!
# The latest occurrence and the next free place

`Series.latest` walks the occurrences once and keeps the one with the greatest place, the last one of
several. Here that walk is described without a walk: `IsLatest` says where such an occurrence stands
in the list, and `latest_eq_some_iff` that the walk finds exactly it. The next free place is described
by its bounds in `nextMask_eq_of_bounds`.
-/

namespace TaskSeries.Series

/-! ## The next free place -/

/-- No occurrence has a place at or behind the next free one. -/
lemma lt_nextMask {children : List Task} {t : Task} {m : Nat} (ht : t ∈ children)
    (hm : t.mask = some m) : m < nextMask children := by
  have hmem : m ∈ children.filterMap Task.mask := List.mem_filterMap.mpr ⟨t, ht, hm⟩
  unfold nextMask
  cases hmax : (children.filterMap Task.mask).max? with
  | none =>
    rw [List.max?_eq_none_iff] at hmax
    rw [hmax] at hmem
    exact absurd hmem List.not_mem_nil
  | some last =>
    have hle := (List.max?_eq_some_iff.mp hmax).2 m hmem
    show m < last + 1
    omega

/-- The next free place lies behind all places, and directly behind one of them unless there is none. -/
lemma nextMask_eq_of_bounds {children : List Task} {n : Nat}
    (hlt : ∀ t ∈ children, ∀ m, t.mask = some m → m < n)
    (hlast : n = 0 ∨ ∃ t ∈ children, t.mask = some (n - 1)) : nextMask children = n := by
  unfold nextMask
  cases hmax : (children.filterMap Task.mask).max? with
  | none =>
    rw [List.max?_eq_none_iff] at hmax
    rcases hlast with hzero | ⟨t, ht, hm⟩
    · exact hzero.symm
    · have hmem : n - 1 ∈ children.filterMap Task.mask := List.mem_filterMap.mpr ⟨t, ht, hm⟩
      rw [hmax] at hmem
      exact absurd hmem List.not_mem_nil
  | some last =>
    obtain ⟨hin, hmost⟩ := List.max?_eq_some_iff.mp hmax
    obtain ⟨t, ht, hm⟩ := List.mem_filterMap.mp hin
    have hbound := hlt t ht last hm
    rcases hlast with hzero | ⟨u, hu, hk⟩
    · omega
    · have hle := hmost (n - 1) (List.mem_filterMap.mpr ⟨u, hu, hk⟩)
      show last + 1 = n
      omega

/-- The next free place does not depend on the order of the occurrences. -/
lemma nextMask_perm {l l' : List Task} (h : l.Perm l') : nextMask l = nextMask l' := by
  have hset : (l.filterMap Task.mask).max? = (l'.filterMap Task.mask).max? := by
    apply Option.ext
    intro last
    rw [List.max?_eq_some_iff, List.max?_eq_some_iff]
    have hp := h.filterMap Task.mask
    simp only [hp.mem_iff]
  unfold nextMask
  rw [hset]

lemma nextMask_map {g : Task → Task} (hg : ∀ t, (g t).mask = t.mask) (l : List Task) :
    nextMask (l.map g) = nextMask l := by
  have hmasks : (l.map g).filterMap Task.mask = l.filterMap Task.mask := by
    rw [List.filterMap_map, show Task.mask ∘ g = Task.mask from funext hg]
  unfold nextMask
  rw [hmasks]

/-! ## The latest occurrence -/

/-- The occurrence has the greatest place, and no occurrence behind it in the list has the same one. -/
def IsLatest (children : List Task) (t : Task) : Prop :=
  ∃ m pre post, children = pre ++ t :: post ∧ t.mask = some m ∧
    (∀ c ∈ pre, ∀ k, c.mask = some k → k ≤ m) ∧ (∀ c ∈ post, ∀ k, c.mask = some k → k < m)

lemma IsLatest.mem {l : List Task} {t : Task} (h : IsLatest l t) : t ∈ l := by
  obtain ⟨m, pre, post, hl, -⟩ := h
  rw [hl]
  simp

/-- No occurrence has a greater place than the latest one. -/
lemma IsLatest.exists_greatest {l : List Task} {t : Task} (h : IsLatest l t) :
    ∃ m, t.mask = some m ∧ ∀ c ∈ l, ∀ k, c.mask = some k → k ≤ m := by
  obtain ⟨m, pre, post, hsplit, hm, hpre, hpost⟩ := h
  refine ⟨m, hm, fun c hc k hk => ?_⟩
  rw [hsplit] at hc
  rcases List.mem_append.mp hc with hc | hc
  · exact hpre c hc k hk
  · rcases List.mem_cons.mp hc with rfl | hc
    · rw [hm] at hk
      exact Nat.le_of_eq (Option.some.inj hk).symm
    · exact Nat.le_of_lt (hpost c hc k hk)

/-- An occurrence added at the end is the latest one when no place is greater than its own. -/
lemma isLatest_concat {l : List Task} {t : Task} {m : Nat} (hm : t.mask = some m)
    (hle : ∀ c ∈ l, ∀ k, c.mask = some k → k ≤ m) : IsLatest (l ++ [t]) t :=
  ⟨m, l, [], rfl, hm, hle, fun _ hc => absurd hc List.not_mem_nil⟩

/-- The latest occurrence stays the latest one when the occurrence added at the end has a smaller
place, or none. -/
lemma IsLatest.concat {l : List Task} {t u : Task} (h : IsLatest l u)
    (hlt : ∀ m, u.mask = some m → ∀ k, t.mask = some k → k < m) : IsLatest (l ++ [t]) u := by
  obtain ⟨m, pre, post, hsplit, hm, hpre, hpost⟩ := h
  refine ⟨m, pre, post ++ [t], by rw [hsplit]; simp, hm, hpre, fun c hc k hk => ?_⟩
  rcases List.mem_append.mp hc with hc | hc
  · exact hpost c hc k hk
  · rw [List.mem_singleton.mp hc] at hk
    exact hlt m hm k hk

/-- The latest occurrence once another one is added at the end. -/
lemma latest_concat (l : List Task) (t : Task) :
    latest (l ++ [t]) =
      match t.mask, (latest l).bind Task.mask with
      | none, _ => latest l
      | some _, none => some t
      | some m, some b => if b ≤ m then some t else latest l := by
  unfold latest
  rw [List.foldl_append]
  rfl

/-- The walk ends at the latest occurrence, and at none only where no occurrence has a place. -/
lemma latest_cases (children : List Task) :
    (latest children = none ∧ ∀ c ∈ children, c.mask = none) ∨
      ∃ t, latest children = some t ∧ IsLatest children t := by
  -- from the end: the occurrence added last is compared with the latest one of those before it
  induction children using List.reverseRecOn with
  | nil => exact Or.inl ⟨rfl, fun c hc => absurd hc List.not_mem_nil⟩
  | append_singleton l t ih =>
    rw [latest_concat]
    cases hm : t.mask with
    | none =>
      rcases ih with ⟨hnone, hall⟩ | ⟨u, hu, hlatest⟩
      · left
        refine ⟨hnone, fun c hc => ?_⟩
        rcases List.mem_append.mp hc with hc | hc
        · exact hall c hc
        · rw [List.mem_singleton.mp hc]
          exact hm
      · refine Or.inr ⟨u, hu, hlatest.concat fun _ _ k hk => ?_⟩
        rw [hm] at hk
        exact absurd hk nofun
    | some m =>
      right
      rcases ih with ⟨hnone, hall⟩ | ⟨u, hu, hlatest⟩
      · refine ⟨t, by rw [hnone]; rfl, isLatest_concat hm fun c hc k hk => ?_⟩
        rw [hall c hc] at hk
        exact absurd hk nofun
      · obtain ⟨b, hub, hgreatest⟩ := hlatest.exists_greatest
        simp only [hu, Option.bind_some, hub]
        by_cases hle : b ≤ m
        · refine ⟨t, if_pos hle, isLatest_concat hm fun c hc k hk => ?_⟩
          exact Nat.le_trans (hgreatest c hc k hk) hle
        · refine ⟨u, if_neg hle, hlatest.concat fun b' hb' k hk => ?_⟩
          rw [hub] at hb'
          rw [hm] at hk
          have hb := Option.some.inj hb'
          have hk := Option.some.inj hk
          omega

/-- There is at most one latest occurrence. -/
lemma IsLatest.unique {l : List Task} {t u : Task} (ht : IsLatest l t) (hu : IsLatest l u) :
    t = u := by
  obtain ⟨m, pre, post, hl, hm, hpre, hpost⟩ := ht
  obtain ⟨k, pre', post', hl', hk, hpre', hpost'⟩ := hu
  rw [hl] at hl'
  rcases List.append_eq_append_iff.mp hl' with ⟨mid, hpre'_eq, hmid⟩ | ⟨mid, hpre_eq, hmid⟩
  · cases mid with
    | nil =>
      rw [List.nil_append] at hmid
      exact (List.cons.inj hmid).1
    | cons c mid =>
      -- `t` stands before `u`, so that the place of `u` is both behind and not behind that of `t`
      obtain ⟨rfl, hpost_eq⟩ := List.cons.inj hmid
      have hlt := hpost u (by rw [hpost_eq]; simp) k hk
      have hle := hpre' t (by rw [hpre'_eq]; simp) m hm
      omega
  · cases mid with
    | nil =>
      rw [List.nil_append] at hmid
      exact (List.cons.inj hmid).1.symm
    | cons c mid =>
      obtain ⟨rfl, hpost_eq⟩ := List.cons.inj hmid
      have hlt := hpost' t (by rw [hpost_eq]; simp) m hm
      have hle := hpre u (by rw [hpre_eq]; simp) k hk
      omega

/-- The occurrence that is found is the latest one. -/
lemma latest_eq_some_iff {l : List Task} {t : Task} : latest l = some t ↔ IsLatest l t := by
  rcases latest_cases l with ⟨hnone, hall⟩ | ⟨u, hu, hlatest⟩
  · rw [hnone]
    constructor
    · intro h
      exact absurd h (by simp)
    · intro h
      obtain ⟨m, -, -, -, hm, -⟩ := id h
      rw [hall t h.mem] at hm
      exact absurd hm (by simp)
  · rw [hu, Option.some.injEq]
    constructor
    · rintro rfl
      exact hlatest
    · exact fun h => hlatest.unique h

/-- None is found exactly when no occurrence has a place. -/
lemma latest_eq_none_iff {l : List Task} : latest l = none ↔ ∀ c ∈ l, c.mask = none := by
  constructor
  · intro h
    rcases latest_cases l with ⟨-, hall⟩ | ⟨u, hu, -⟩
    · exact hall
    · rw [h] at hu
      exact absurd hu (by simp)
  · intro hall
    cases h : latest l with
    | none => rfl
    | some t =>
      obtain ⟨m, -, -, -, hm, -⟩ := id (latest_eq_some_iff.mp h)
      rw [hall t (latest_eq_some_iff.mp h).mem] at hm
      exact absurd hm (by simp)

/-- An occurrence added behind all places is the latest one. -/
lemma latest_concat_of_lt {l : List Task} {t : Task} {m : Nat} (hm : t.mask = some m)
    (hlt : ∀ c ∈ l, ∀ k, c.mask = some k → k < m) : latest (l ++ [t]) = some t := by
  rw [latest_eq_some_iff]
  exact isLatest_concat hm fun c hc k hk => Nat.le_of_lt (hlt c hc k hk)

/-- The next free place is the one behind the latest occurrence. -/
lemma IsLatest.nextMask_eq {l : List Task} {t : Task} {k : Nat} (h : IsLatest l t)
    (hk : t.mask = some k) : nextMask l = k + 1 := by
  obtain ⟨m, hm, hgreatest⟩ := h.exists_greatest
  obtain rfl : k = m := Option.some.inj (hk.symm.trans hm)
  apply nextMask_eq_of_bounds
  · exact fun c hc j hj => Nat.lt_succ_of_le (hgreatest c hc j hj)
  · exact Or.inr ⟨t, h.mem, hk⟩

/-- Where no place is taken twice, the latest occurrence is the one with the greatest place, wherever
it stands. -/
lemma isLatest_iff_of_nodup {l : List Task} {t : Task} (hl : (l.filterMap Task.mask).Nodup) :
    IsLatest l t ↔ t ∈ l ∧ ∃ m, t.mask = some m ∧ ∀ c ∈ l, ∀ k, c.mask = some k → k ≤ m := by
  constructor
  · exact fun ht => ⟨ht.mem, ht.exists_greatest⟩
  · rintro ⟨hmem, m, hm, hmost⟩
    obtain ⟨pre, post, hsplit⟩ := List.append_of_mem hmem
    refine ⟨m, pre, post, hsplit, hm, fun c hc k hk => hmost c (by rw [hsplit]; simp [hc]) k hk,
      fun c hc k hk => ?_⟩
    have hle := hmost c (by rw [hsplit]; simp [hc]) k hk
    have hne : k ≠ m := by
      rintro rfl
      rw [hsplit, List.filterMap_append, List.filterMap_cons, hm] at hl
      have hnot := (List.nodup_cons.mp (List.nodup_append.mp hl).2.1).1
      exact hnot (List.mem_filterMap.mpr ⟨c, hc, hk⟩)
    omega

/-- Where no place is taken twice, the latest occurrence does not depend on the order. -/
lemma latest_perm {l l' : List Task} (h : l.Perm l') (hl : (l.filterMap Task.mask).Nodup) :
    latest l = latest l' := by
  have hl' : (l'.filterMap Task.mask).Nodup := (h.filterMap Task.mask).nodup_iff.mp hl
  apply Option.ext
  intro t
  rw [latest_eq_some_iff, latest_eq_some_iff, isLatest_iff_of_nodup hl, isLatest_iff_of_nodup hl']
  simp only [h.mem_iff]

/-- A change that keeps the places keeps the latest occurrence, changed like all others. -/
lemma latest_map {g : Task → Task} (hg : ∀ t, (g t).mask = t.mask) (l : List Task) :
    latest (l.map g) = (latest l).map g := by
  cases h : latest l with
  | none =>
    rw [latest_eq_none_iff] at h
    rw [Option.map_none, latest_eq_none_iff]
    intro c hc
    obtain ⟨t, ht, rfl⟩ := List.mem_map.mp hc
    rw [hg]
    exact h t ht
  | some t =>
    obtain ⟨m, pre, post, rfl, hm, hpre, hpost⟩ := latest_eq_some_iff.mp h
    rw [Option.map_some, latest_eq_some_iff]
    refine ⟨m, pre.map g, post.map g, by simp, by rw [hg]; exact hm, ?_, ?_⟩
    · intro c hc k hk
      obtain ⟨u, hu, rfl⟩ := List.mem_map.mp hc
      exact hpre u hu k (by rw [← hg u]; exact hk)
    · intro c hc k hk
      obtain ⟨u, hu, rfl⟩ := List.mem_map.mp hc
      exact hpost u hu k (by rw [← hg u]; exact hk)

end TaskSeries.Series
