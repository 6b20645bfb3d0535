import Mathlib.Data.List.Nodup
import Mathlib.Tactic.Lemma
import Mathlib.Tactic.SplitIfs
import TaskSeries.Json.Basic

/-!
# Merged values at a path

What a merged value holds at a path comes from what the two values hold there (`Json.valueAt?_merge`), as
long as the overriding value has nothing but objects on the way. So the last value that specifies a
part decides how this part is read (`Json.readAt_merge`).
-/

namespace TaskSeries.Json

/-! ## Members -/

/-- No object names a member twice, and neither does one that is a member of it. -/
inductive Distinct : Json → Prop
  | other {j : Json} (h : ∀ members, j ≠ obj members) : Distinct j
  | obj {members : List (String × Json)} (hkeys : (members.map Prod.fst).Nodup)
      (hvalues : ∀ m ∈ members, Distinct m.2) : Distinct (obj members)

section
variable {key : String} {members overrides : List (String × Json)}

lemma Distinct.nodup (h : Distinct (.obj members)) : (members.map Prod.fst).Nodup := by
  cases h with
  | other h => exact absurd rfl (h members)
  | obj hkeys => exact hkeys

lemma Distinct.values (h : Distinct (.obj members)) : ∀ m ∈ members, Distinct m.2 := by
  cases h with
  | other h => exact absurd rfl (h members)
  | obj _ hvalues => exact hvalues

/-- What is found under a key is a member. -/
lemma mem_of_lookup {v : Json} (h : lookup key members = some v) : (key, v) ∈ members := by
  fun_induction lookup key members with
  | case1 => exact absurd h nofun
  | case2 value rest =>
    rw [Option.some.inj h]
    exact List.mem_cons_self
  | case3 k value rest hk ih => exact List.mem_cons_of_mem _ (ih h)

/-- A member is found under its key, if no other one has the key. -/
lemma lookup_of_mem {v : Json} (hkeys : (members.map Prod.fst).Nodup) (h : (key, v) ∈ members) :
    lookup key members = some v := by
  induction members with
  | nil => exact absurd h List.not_mem_nil
  | cons m rest ih =>
    obtain ⟨k, w⟩ := m
    rw [List.map_cons, List.nodup_cons] at hkeys
    rw [lookup]
    rcases List.mem_cons.mp h with heq | hrest
    · obtain ⟨rfl, rfl⟩ := Prod.mk.inj heq
      exact if_pos rfl
    · have hne : k ≠ key := by
        rintro rfl
        exact hkeys.1 (List.mem_map.mpr ⟨_, hrest, rfl⟩)
      rw [if_neg hne, ih hkeys.2 hrest]

lemma lookup_eq_none (h : key ∉ members.map Prod.fst) : lookup key members = none := by
  fun_induction lookup key members with
  | case1 => rfl
  | case2 value rest => exact absurd List.mem_cons_self h
  | case3 k value rest hk ih => exact ih fun hmem => h (List.mem_cons_of_mem _ hmem)

/-- A value that is put under a key is found there, and what is found elsewhere stays. -/
lemma lookup_put (k : String) (v : Json) (members : List (String × Json)) :
    lookup key (put k v members) = if k = key then some v else lookup key members := by
  fun_induction put k v members with
  | case1 => rfl
  | case2 old rest =>
    unfold lookup
    split_ifs <;> rfl
  | case3 k' old rest hk ih =>
    unfold lookup
    rw [ih]
    split_ifs with h h'
    · exact absurd (h.trans h'.symm) hk
    · rfl
    · rfl
    · rfl

/-- A member takes its place among the names, at the end if it is new. -/
lemma map_fst_put (k : String) (v : Json) (members : List (String × Json)) :
    (put k v members).map Prod.fst =
      if k ∈ members.map Prod.fst then members.map Prod.fst else members.map Prod.fst ++ [k] := by
  fun_induction put k v members with
  | case1 => rfl
  | case2 old rest => simp
  | case3 k' old rest hk ih =>
    simp only [List.map_cons, ih, List.mem_cons, Ne.symm hk, false_or]
    split_ifs <;> rfl

lemma nodup_put {k : String} {v : Json} (h : (members.map Prod.fst).Nodup) :
    ((put k v members).map Prod.fst).Nodup := by
  rw [map_fst_put]
  split_ifs with hmem
  · exact h
  · rw [← List.concat_eq_append, List.nodup_concat]
    exact ⟨hmem, h⟩

lemma mem_put {k : String} {v : Json} {m : String × Json} (h : m ∈ put k v members) :
    m = (k, v) ∨ m ∈ members := by
  fun_induction put k v members with
  | case1 => exact Or.inl (List.mem_singleton.mp h)
  | case2 old rest =>
    rcases List.mem_cons.mp h with rfl | hrest
    · exact Or.inl rfl
    · exact Or.inr (List.mem_cons_of_mem _ hrest)
  | case3 k' old rest hk ih =>
    rcases List.mem_cons.mp h with rfl | hrest
    · exact Or.inr List.mem_cons_self
    · exact (ih hrest).imp_right (List.mem_cons_of_mem _)

lemma Distinct.put {k : String} {v : Json} (h : Distinct (.obj members)) (hv : Distinct v) :
    Distinct (.obj (put k v members)) := by
  refine .obj (nodup_put h.nodup) fun m hm => ?_
  rcases mem_put hm with rfl | hold
  · exact hv
  · exact h.values m hold

/-- An object that is built member by member names none twice. -/
lemma distinct_ofMembers (h : ∀ m ∈ members, Distinct m.2) : Distinct (ofMembers members) := by
  refine List.foldlRecOn (motive := fun built => Distinct (.obj built)) members _ ?_ ?_
  · exact .obj List.nodup_nil fun m hm => absurd hm List.not_mem_nil
  · exact fun built hbuilt m hm => hbuilt.put (h m hm)

/-! ## Merging -/

/-- The entry that a merge makes of two entries. -/
def mergeEntry : Option Json → Option Json → Option Json
  | none, overlay => overlay
  | base, none => base
  | some base, some overlay => some (merge base overlay)

lemma mergeEntry_none (base : Option Json) : mergeEntry base none = base := by
  cases base <;> rfl

/-- Members are merged name by name. -/
lemma lookup_mergeMembers (h : (overrides.map Prod.fst).Nodup) :
    lookup key (mergeMembers members overrides) =
      mergeEntry (lookup key members) (lookup key overrides) := by
  induction overrides generalizing members with
  | nil =>
    rw [mergeMembers]
    exact (mergeEntry_none _).symm
  | cons m rest ih =>
    obtain ⟨k, v⟩ := m
    rw [List.map_cons, List.nodup_cons] at h
    rw [mergeMembers, ih h.2, lookup_put, lookup]
    split_ifs with hk
    · -- the member is the one that is overridden, and none of the others has its name
      rw [← hk, lookup_eq_none h.1, mergeEntry_none]
      cases lookup k members <;> rfl
    · rfl

end

/-- What is neither null nor an object replaces everything. -/
lemma merge_of_not_obj {base overlay : Json} (hnull : overlay ≠ .null)
    (hobj : ∀ members, overlay ≠ .obj members) : merge base overlay = overlay := by
  cases overlay with
  | null => exact absurd rfl hnull
  | obj members => exact absurd rfl (hobj members)
  | _ => rw [merge.eq_def]

lemma merge_null (base : Json) : merge base .null = base := by
  rw [merge.eq_def]

/-- An object makes an object of everything. -/
lemma exists_merge_obj (base : Json) (overrides : List (String × Json)) :
    ∃ members, merge base (.obj overrides) = .obj members := by
  rw [merge.eq_def]
  cases base <;> exact ⟨_, rfl⟩

/-- The members of merged objects are merged key by key. -/
lemma get?_merge_obj {key : String} {base : Json} {overrides : List (String × Json)}
    (h : (overrides.map Prod.fst).Nodup) :
    (merge base (.obj overrides)).get? key = mergeEntry (base.get? key) (lookup key overrides) := by
  rw [merge.eq_def]
  cases base with
  | obj members => exact lookup_mergeMembers h
  | _ => rfl

/-! ## Paths -/

/-- Null or an object. -/
def IsRecord (j : Json) : Prop := j = .null ∨ ∃ members, j = .obj members

lemma not_isRecord_arr (items : List Json) : ¬ IsRecord (.arr items) := by
  rintro (hnull | ⟨members, hobj⟩)
  · cases hnull
  · cases hobj

instance : DecidablePred IsRecord
  | null => isTrue (Or.inl rfl)
  | obj members => isTrue (Or.inr ⟨members, rfl⟩)
  | bool _ | int _ | real _ | str _ | arr _ => isFalse (not_or.mpr ⟨nofun, nofun⟩)

instance : DecidablePred (· = obj [])
  | obj [] => isTrue rfl
  | obj (_ :: _) | null | bool _ | int _ | real _ | str _ | arr _ => isFalse nofun

/-- What a value holds at a path of member names. -/
def valueAt? : List String → Json → Option Json
  | [], j => some j
  | key :: path, j => (j.get? key).bind (valueAt? path)

/-- On the way to a path there are only objects, as far as there is anything. -/
def OpensTo : List String → Json → Prop
  | [], _ => True
  | key :: path, j => j = .null ∨
    ∃ members, j = .obj members ∧ ∀ v, lookup key members = some v → OpensTo path v

/-- At a path a merge makes one entry of the entries that the two values have there. -/
lemma valueAt?_merge {path : List String} {base overlay : Json} (hdistinct : overlay.Distinct)
    (hopens : OpensTo path overlay) :
    valueAt? path (merge base overlay) = mergeEntry (valueAt? path base) (valueAt? path overlay) := by
  induction path generalizing base overlay with
  | nil => rfl
  | cons key path ih =>
    rcases hopens with rfl | ⟨overrides, rfl, hvalues⟩
    · rw [merge_null]
      exact (mergeEntry_none _).symm
    · show ((merge base (.obj overrides)).get? key).bind (valueAt? path) =
        mergeEntry ((base.get? key).bind (valueAt? path)) ((lookup key overrides).bind (valueAt? path))
      rw [get?_merge_obj hdistinct.nodup]
      cases hover : lookup key overrides with
      | none => rw [mergeEntry_none, Option.bind_none, mergeEntry_none]
      | some v =>
        cases base.get? key with
        | none => rfl
        | some old => exact ih (hdistinct.values _ (mem_of_lookup hover)) (hvalues v hover)

/-! ## Reading a merged value -/

section
variable {α : Type} {read : Json → Option α} {standard v : α} {path : List String} {base overlay : Json}

/-- What is read after a value was merged into another one is read of that value alone. -/
def ReadsLast (read : Json → Option α) (overlay : Json) : Prop :=
  ∀ base v, read (merge base overlay) = some v → read overlay = some v

/-- Reads what a value holds at a path; what holds nothing there has a standard value. -/
def readAt (path : List String) (read : Json → Option α) (standard : α) (j : Json) : Option α :=
  match valueAt? path j with
  | none => some standard
  | some v => read v

/-- What a value specifies at a path: null specifies nothing. -/
def specified? (path : List String) (j : Json) : Option Json :=
  match valueAt? path j with
  | some .null => none
  | entry => entry

/-- A tier says nothing at a path where it has no value or null. -/
lemma specified?_eq_none_iff :
    specified? path overlay = none ↔ valueAt? path overlay = none ∨ valueAt? path overlay = some .null := by
  unfold specified?
  split
  · next h => exact iff_of_true rfl (Or.inr h)
  · next h => exact ⟨Or.inl, fun hor => hor.resolve_right h⟩

/-- What a tier says at a path is the value it has there, unless this is null. -/
lemma specified?_eq_some_iff {x : Json} :
    specified? path overlay = some x ↔ valueAt? path overlay = some x ∧ x ≠ .null := by
  unfold specified?
  split
  · next h =>
    refine ⟨nofun, fun ⟨hx, hne⟩ => ?_⟩
    exact absurd (Option.some.inj (hx.symm.trans h)) hne
  · next h =>
    refine ⟨fun hx => ⟨hx, ?_⟩, fun hx => hx.1⟩
    rintro rfl
    exact h hx

/-- A value inside of a value with distinct keys has distinct keys, too. -/
lemma distinct_of_valueAt? {j x : Json} (hdistinct : j.Distinct) (h : valueAt? path j = some x) :
    x.Distinct := by
  induction path generalizing j with
  | nil =>
    rw [← Option.some.inj h]
    exact hdistinct
  | cons key path ih =>
    obtain ⟨v, hv, hx⟩ := Option.bind_eq_some_iff.mp h
    cases j with
    | obj members => exact ih (hdistinct.values _ (mem_of_lookup hv)) hx
    | _ => exact absurd hv nofun

/-- A merged value is read at a path as the overriding value if that one specifies anything there, and
as the other one otherwise. -/
lemma readAt_merge (hnull : read .null = none) (hdistinct : overlay.Distinct)
    (hopens : OpensTo path overlay)
    (hlast : ∀ x, specified? path overlay = some x → ReadsLast read x)
    (h : readAt path read standard (merge base overlay) = some v) :
    (∀ x, specified? path overlay = some x → read x = some v) ∧
    (specified? path overlay = none → readAt path read standard base = some v) := by
  unfold readAt at h
  rw [valueAt?_merge hdistinct hopens] at h
  constructor
  · intro x hx
    rw [(specified?_eq_some_iff.mp hx).1] at h
    cases hbase : valueAt? path base with
    | none =>
      rw [hbase] at h
      exact h
    | some old =>
      rw [hbase] at h
      exact hlast x hx old v h
  · intro hnone
    unfold readAt
    rcases specified?_eq_none_iff.mp hnone with hover | hover
    · rw [hover, mergeEntry_none] at h
      exact h
    · rw [hover] at h
      cases hbase : valueAt? path base with
      | none =>
        rw [hbase] at h
        exact absurd (hnull.symm.trans h) nofun
      | some old =>
        rw [hbase] at h
        show read old = some v
        rw [← merge_null old]
        exact h

/-! ## Leaves -/

/-- A reader that takes no object reads a merged value as the last one. -/
lemma readsLast_of_not_obj (hobj : ∀ members, read (.obj members) = none) (hnull : overlay ≠ .null) :
    ReadsLast read overlay := by
  intro base v h
  cases overlay with
  | null => exact absurd rfl hnull
  | obj overrides =>
    obtain ⟨members, hmerge⟩ := exists_merge_obj base overrides
    rw [hmerge, hobj] at h
    exact absurd h nofun
  | _ =>
    rw [merge_of_not_obj hnull (fun _ => nofun)] at h
    exact h

/-- A case is named by an object with one key and null under it. -/
lemma caseName?_obj {members : List (String × Json)} {name : String}
    (h : caseName? (.obj members) = some name) : members = [(name, .null)] := by
  unfold caseName? at h
  split at h
  · next heq => exact absurd heq nofun
  · next heq =>
    rw [Json.obj.inj heq, Option.some.inj h]
  · exact absurd h nofun

/-- A merge gives null only for null. -/
lemma eq_null_of_merge (h : merge base overlay = .null) : overlay = .null := by
  by_contra hnull
  cases overlay with
  | null => exact hnull rfl
  | obj overrides =>
    obtain ⟨members, hmerge⟩ := exists_merge_obj base overrides
    exact absurd (hmerge.symm.trans h) nofun
  | _ => exact absurd ((merge_of_not_obj hnull fun _ => nofun).symm.trans h) nofun

/-- If all that remains of an object after a merge is one member without content, then this member is
all that was merged into it. -/
lemma eq_of_mergeMembers {members overrides : List (String × Json)} {name : String}
    (hne : overrides ≠ []) (hdistinct : Distinct (.obj overrides))
    (h : mergeMembers members overrides = [(name, .null)]) : overrides = [(name, .null)] := by
  have hall : ∀ m ∈ overrides, m = (name, .null) := by
    intro ⟨k, v⟩ hm
    have hmerged := @lookup_mergeMembers k members overrides hdistinct.nodup
    rw [h, lookup_of_mem hdistinct.nodup hm] at hmerged
    obtain ⟨w, hw, hnull⟩ : ∃ w, mergeEntry (lookup k members) (some v) = some w ∧
        (w = .null → v = .null) := by
      cases lookup k members with
      | none => exact ⟨v, rfl, id⟩
      | some old => exact ⟨merge old v, rfl, eq_null_of_merge⟩
    rw [hw, lookup] at hmerged
    split_ifs at hmerged with hk
    · rw [hk, hnull (Option.some.inj hmerged).symm]
    · exact absurd hmerged nofun
  obtain ⟨m, rest, rfl⟩ := List.exists_cons_of_ne_nil hne
  have hnodup := hdistinct.nodup
  rw [List.map_cons, List.nodup_cons, hall m List.mem_cons_self] at hnodup
  cases rest with
  | nil => rw [hall m List.mem_cons_self]
  | cons m' rest =>
    refine absurd ?_ hnodup.1
    rw [List.map_cons, hall m' (List.mem_cons_of_mem _ List.mem_cons_self)]
    exact List.mem_cons_self

/-- The name of a case is not put together from several values, unless nothing is merged in. -/
lemma readsLast_caseName? (f : String → Option α) (hdistinct : overlay.Distinct)
    (hnull : overlay ≠ .null) (hempty : overlay ≠ .obj []) :
    ReadsLast (fun j => j.caseName?.bind f) overlay := by
  intro base v h
  obtain ⟨name, hname, hv⟩ := Option.bind_eq_some_iff.mp h
  suffices hover : overlay.caseName? = some name from
    Option.bind_eq_some_iff.mpr ⟨name, hover, hv⟩
  cases overlay with
  | null => exact absurd rfl hnull
  | obj overrides =>
    have hne : overrides ≠ [] := fun hnil => hempty (congrArg Json.obj hnil)
    rw [merge.eq_def] at hname
    cases base with
    | obj members =>
      rw [eq_of_mergeMembers hne hdistinct (caseName?_obj hname)]
      rfl
    | _ => exact hname
  | _ =>
    rw [merge_of_not_obj hnull (fun _ => nofun)] at hname
    exact hname

end

end TaskSeries.Json
