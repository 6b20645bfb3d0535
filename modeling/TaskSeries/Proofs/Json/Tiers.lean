import Mathlib.Data.List.Induction
import TaskSeries.Proofs.Json.Merge

/-!
# Values merged in order

Of several values that are merged in order, the last one that specifies a leaf decides what is there, and
a value that is merged a second time changes nothing any more (`Json.mergeAll_last`). Both come down
to one entry of an object: a merge makes it of the two entries that it meets, and merging the second one
in again finds its own work done.
-/

namespace TaskSeries.Json

section
variable {path : List String} {base overlay : Json} {members overrides : List (String × Json)}

/-! ## The last value -/

/-- A value has no object at a path, and on the way there it has nothing but objects. -/
structure EndsAt (path : List String) (j : Json) : Prop where
  opens : OpensTo path j
  leaf : ∀ members, valueAt? path j ≠ some (.obj members)

/-- A leaf takes the place of every entry. -/
lemma mergeEntry_leaf {x : Json} (hnull : x ≠ .null) (hobj : ∀ members, x ≠ .obj members)
    (old : Option Json) : mergeEntry old (some x) = some x := by
  cases old with
  | none => rfl
  | some old => exact congrArg some (merge_of_not_obj hnull hobj)

/-- Null leaves every entry as it is, and it is inserted where there is none. -/
lemma mergeEntry_null (old : Option Json) : mergeEntry old (some .null) = some (old.getD .null) := by
  cases old with
  | none => rfl
  | some old => exact congrArg some (merge_null old)

/-- What an overriding value specifies at a leaf counts, and otherwise what the other one does. -/
lemma specified?_merge (hdistinct : overlay.Distinct) (hends : EndsAt path overlay) :
    specified? path (merge base overlay) = (specified? path overlay).or (specified? path base) := by
  have hentry := @valueAt?_merge path base overlay hdistinct hends.opens
  cases hover : specified? path overlay with
  | some x =>
    obtain ⟨hx, hnull⟩ := specified?_eq_some_iff.mp hover
    have hobj : ∀ members, x ≠ .obj members := fun members h => hends.leaf members (h ▸ hx)
    rw [hx, mergeEntry_leaf hnull hobj] at hentry
    rw [Option.some_or, specified?_eq_some_iff]
    exact ⟨hentry, hnull⟩
  | none =>
    rw [Option.none_or]
    unfold specified?
    rcases specified?_eq_none_iff.mp hover with hnone | hnull
    · rw [hnone, mergeEntry_none] at hentry
      rw [hentry]
    · -- an inserted null specifies as little as no entry
      rw [hnull, mergeEntry_null] at hentry
      rw [hentry]
      cases valueAt? path base <;> rfl

/-- What several values specify at a leaf is what the last of them does that specifies anything. -/
lemma specified?_mergeAll {values : List Json} (h : ∀ v ∈ values, v.Distinct ∧ EndsAt path v) :
    specified? path (mergeAll values) = (values.filterMap (specified? path)).getLast? := by
  induction values using List.reverseRecOn with
  | nil => cases path <;> rfl
  | append_singleton values v ih =>
    obtain ⟨hdistinct, hends⟩ := h v (List.mem_append_right _ List.mem_cons_self)
    have hmerge : mergeAll (values ++ [v]) = merge (mergeAll values) v :=
      List.foldl_append
    rw [hmerge, specified?_merge hdistinct hends, ih fun w hw => h w (List.mem_append_left _ hw),
      List.filterMap_append, List.getLast?_append]
    cases hv : specified? path v <;> simp [hv]

/-! ## The same value again -/

/-- Two objects are merged member by member. -/
lemma merge_obj_obj : merge (.obj members) (.obj overrides) = .obj (mergeMembers members overrides) := by
  rw [merge.eq_def]

/-- An object replaces what is no object. -/
lemma merge_obj_of_not_obj (h : ∀ members, base ≠ .obj members) :
    merge base (.obj overrides) = .obj overrides := by
  rw [merge.eq_def]
  cases base with
  | obj members => exact absurd rfl (h members)
  | _ => rfl

/-- Null is overridden by everything. -/
lemma null_merge (overlay : Json) : merge .null overlay = overlay := by
  rw [merge.eq_def]
  cases overlay <;> rfl

lemma put_eq_self {key : String} {v : Json} (h : lookup key members = some v) :
    put key v members = members := by
  fun_induction put key v members with
  | case1 => exact absurd h.symm (Option.some_ne_none v)
  | case2 old rest =>
    rw [lookup, if_pos rfl] at h
    rw [Option.some.inj h]
  | case3 k old rest hk ih =>
    rw [lookup, if_neg hk] at h
    rw [ih h]

/-- Members that are there already, with nothing to be changed in them, stay as they are. -/
lemma mergeMembers_eq_self
    (h : ∀ m ∈ overrides, ∃ v, lookup m.1 members = some v ∧ merge v m.2 = v) :
    mergeMembers members overrides = members := by
  induction overrides with
  | nil => rw [mergeMembers]
  | cons m rest ih =>
    obtain ⟨v, hv, hmerge⟩ := h m List.mem_cons_self
    rw [mergeMembers, hv]
    dsimp only
    rw [hmerge, put_eq_self hv]
    exact ih fun m hm => h m (List.mem_cons_of_mem _ hm)

/-- A value that is merged in twice is merged in once. -/
lemma merge_merge (base : Json) (h : overlay.Distinct) :
    merge (merge base overlay) overlay = merge base overlay := by
  induction h generalizing base with
  | @other overlay hobj =>
    by_cases hnull : overlay = .null
    · rw [hnull, merge_null]
    · rw [merge_of_not_obj hnull hobj, merge_of_not_obj hnull hobj]
  | @obj overrides hkeys hvalues ih =>
    have hself : ∀ m ∈ overrides, merge m.2 m.2 = m.2 := by
      intro m hm
      have hnull := ih m hm .null
      rwa [null_merge] at hnull
    by_cases hbase : ∃ members, base = .obj members
    · obtain ⟨members, rfl⟩ := hbase
      rw [merge_obj_obj, merge_obj_obj]
      refine congrArg Json.obj (mergeMembers_eq_self fun m hm => ?_)
      rw [lookup_mergeMembers hkeys, lookup_of_mem hkeys hm]
      cases lookup m.1 members with
      | none => exact ⟨m.2, rfl, hself m hm⟩
      | some old => exact ⟨merge old m.2, rfl, ih m hm old⟩
    · -- the first merge leaves the object alone, and the second one merges it into itself
      rw [merge_obj_of_not_obj (not_exists.mp hbase), merge_obj_obj]
      exact congrArg Json.obj (mergeMembers_eq_self fun m hm =>
        ⟨m.2, lookup_of_mem hkeys hm, hself m hm⟩)

/-- A value that is merged into itself stays as it is. -/
lemma merge_self (h : base.Distinct) : merge base base = base := by
  have hnull := merge_merge .null h
  rwa [null_merge] at hnull

end

/-! ## Precedence at every path -/

/-- Merging in order, the last one wins at every path: where the values have leaves, the merged value has
the last entry that is not null, and it has null or nothing exactly when none of them has more. A value
that is merged into itself stays as it is, and one that is merged in twice is merged in once, also where
an object takes the place of a leaf or a leaf that of an object. -/
theorem mergeAll_last :
    (∀ (values : List Json) (path : List String),
      (∀ v ∈ values, v.Distinct ∧ EndsAt path v) →
      (∀ x, (values.filterMap (specified? path)).getLast? = some x →
        valueAt? path (mergeAll values) = some x) ∧
      (valueAt? path (mergeAll values) = none ∨ valueAt? path (mergeAll values) = some .null ↔
        ∀ v ∈ values, valueAt? path v = none ∨ valueAt? path v = some .null)) ∧
    (∀ a : Json, a.Distinct → merge a a = a) ∧
    ∀ a b : Json, b.Distinct → merge (merge a b) b = merge a b := by
  refine ⟨fun values path h => ?_, fun a => merge_self, fun a b => merge_merge a⟩
  have hlast := specified?_mergeAll h
  constructor
  · intro x hx
    exact (specified?_eq_some_iff.mp (hlast.trans hx)).1
  · rw [← specified?_eq_none_iff, hlast, List.getLast?_eq_none_iff, List.filterMap_eq_nil_iff]
    simp only [specified?_eq_none_iff]

lemma distinct_single {key : String} {v : Json} (h : v.Distinct) : (obj [(key, v)]).Distinct :=
  .obj (List.nodup_singleton key) (List.forall_mem_singleton.mpr h)

/-- A limit that stands between two nulls counts, and a text takes the place of an object for good. -/
theorem mergeAll_last_limitBetweenNulls :
    let values := [obj [("recurrence", null)], obj [("recurrence", obj [("limit", int 3)])],
      obj [("recurrence", obj [("enabled", bool true), ("limit", null)])]]
    let file := obj [("store", obj [("db_path", str "a.db")])]
    let leaf := obj [("store", str "b.db")]
    (∀ v ∈ values, v.Distinct ∧ EndsAt ["recurrence", "limit"] v) ∧
    valueAt? ["recurrence", "limit"] (mergeAll values) = some (int 3) ∧
    file.Distinct ∧ leaf.Distinct ∧ merge file file = file ∧ merge file leaf = leaf ∧
    merge (merge file leaf) leaf = merge file leaf := by
  intro values file leaf
  have hscalar : ∀ v ∈ [bool true, null, int 3], v.Distinct := fun v hv => .other (by grind)
  have hempty : (obj [("recurrence", null)]).Distinct := distinct_single (hscalar null (by simp))
  have hthree : (obj [("recurrence", obj [("limit", int 3)])]).Distinct :=
    distinct_single (distinct_single (hscalar (int 3) (by simp)))
  have hnull : (obj [("recurrence", obj [("enabled", bool true), ("limit", null)])]).Distinct := by
    refine distinct_single (.obj (by decide) (List.forall_mem_cons.mpr ⟨?_, ?_⟩))
    · exact hscalar (bool true) (by simp)
    · exact List.forall_mem_singleton.mpr (hscalar null (by simp))
  have hvalues : ∀ v ∈ values, v.Distinct ∧ EndsAt ["recurrence", "limit"] v := by
    rw [List.forall_mem_cons, List.forall_mem_cons, List.forall_mem_singleton]
    refine ⟨⟨hempty, Or.inr ⟨_, rfl, fun v hv => ?_⟩, fun _ => nofun⟩,
      ⟨hthree, Or.inr ⟨_, rfl, fun v hv => ?_⟩, fun _ => nofun⟩,
      ⟨hnull, Or.inr ⟨_, rfl, fun v hv => ?_⟩, fun _ => nofun⟩⟩
    · exact Or.inl (Option.some.inj hv).symm
    · exact Or.inr ⟨_, (Option.some.inj hv).symm, fun _ _ => trivial⟩
    · exact Or.inr ⟨_, (Option.some.inj hv).symm, fun _ _ => trivial⟩
  have hfile : file.Distinct := distinct_single (distinct_single (.other fun _ => nofun))
  have hleaf : leaf.Distinct := distinct_single (.other fun _ => nofun)
  obtain ⟨hlast, hself, htwice⟩ := mergeAll_last
  exact ⟨hvalues, (hlast _ _ hvalues).1 (int 3) rfl, hfile, hleaf, hself file hfile, rfl,
    htwice file leaf hleaf⟩

end TaskSeries.Json
