import TaskSeries.Proofs.Json.Merge
import TaskSeries.Yaml.Document

/-!
# Members of YAML maps

The value of a YAML text names no member of an object twice (`Yaml.distinct_parse?`), because every map
is put together member by member.
-/

namespace TaskSeries

namespace Yaml

/-! ## Scalars -/

lemma ne_obj_of_integer? {n : Int} {j : Json} (h : integer? n = some j) :
    ∀ members, j ≠ .obj members := by
  unfold integer? at h
  split_ifs at h
  rw [← Option.some.inj h]
  exact fun _ => nofun

lemma ne_obj_of_fraction? {s : String} {j : Json} (h : fraction? s = some j) :
    ∀ members, j ≠ .obj members := by
  unfold fraction? at h
  split_ifs at h
  all_goals
    rw [← Option.some.inj h]
    exact fun _ => nofun

lemma ne_obj_of_scalar {s : String} {j : Json} (h : scalar s = some j) :
    ∀ members, j ≠ .obj members := by
  have hfraction : ∀ members, (fraction? s).getD (.str s) ≠ .obj members := by
    cases hvalue : fraction? s with
    | none => exact fun _ => nofun
    | some v => exact ne_obj_of_fraction? hvalue
  unfold scalar at h
  repeat' split at h
  all_goals first
    | exact ne_obj_of_integer? h
    | (rw [← Option.some.inj h]; exact hfraction)
    | (rw [← Option.some.inj h]; exact fun _ => nofun)

/-- No scalar is an object. -/
lemma distinct_scalarValue? {tag : Option (List Char)} {text : List Char} {plain : Bool} {j : Json}
    (h : scalarValue? tag text plain = some j) : j.Distinct := by
  refine .other ?_
  unfold scalarValue? at h
  dsimp only at h
  split at h
  · split_ifs at h
    · exact ne_obj_of_scalar h
    · rw [← Option.some.inj h]
      exact fun _ => nofun
  · exact absurd h nofun
  · split_ifs at h
    · obtain ⟨b, -, rfl⟩ := Option.map_eq_some_iff.mp h
      exact fun _ => nofun
    · obtain ⟨n, -, hn⟩ := Option.bind_eq_some_iff.mp h
      exact ne_obj_of_integer? hn
    · exact ne_obj_of_fraction? h
    all_goals
      rw [← Option.some.inj h]
      exact fun _ => nofun

/-! ## Lists and maps -/

namespace References

variable {r : References} {depth left left' : Nat} {j : Json}

/-- Where the values that are read have distinct keys, those of the members have them. -/
lemma distinct_membersWith {value : Nat → Node Nat → Option (Json × Nat)}
    (hvalue : ∀ {left node j left'}, value left node = some (j, left') → j.Distinct)
    {members : List (Node Nat × Node Nat)} {ms : List (String × Json)}
    (h : membersWith r value left members = some (ms, left')) : ∀ m ∈ ms, m.2.Distinct := by
  induction members generalizing left left' ms with
  | nil =>
    have hnil : [] = ms := (Prod.mk.inj (Option.some.inj h)).1
    rw [← hnil]
    exact fun m hm => absurd hm List.not_mem_nil
  | cons m rest ih =>
    obtain ⟨key, node⟩ := m
    rw [membersWith] at h
    simp only [Option.bind_eq_bind, Option.bind_eq_some_iff] at h
    obtain ⟨⟨name, left₁⟩, -, ⟨v, left₂⟩, hv, ⟨vs, left₃⟩, hrest, h⟩ := h
    have hcons : (name, v) :: vs = ms := (Prod.mk.inj (Option.some.inj h)).1
    rw [← hcons, List.forall_mem_cons]
    exact ⟨hvalue hv, ih hrest⟩

/-- A map that a document describes names no member twice. -/
lemma distinct_value? {node : Node Nat} (h : r.value? depth left node = some (j, left')) :
    j.Distinct := by
  induction depth using Nat.strongRecOn generalizing left node j left' with
  | ind depth ih =>
    rw [value?.eq_def] at h
    dsimp only at h
    cases hfollow : r.follow? left node with
    | none =>
      rw [hfollow] at h
      exact absurd h nofun
    | some target =>
      obtain ⟨target, left₁⟩ := target
      rw [hfollow] at h
      cases target with
      | reference n => exact absurd h nofun
      | scalar p text plain =>
        obtain ⟨v, hv, heq⟩ := Option.map_eq_some_iff.mp h
        rw [← (Prod.mk.inj heq).1]
        exact distinct_scalarValue? hv
      | list p items =>
        cases depth with
        | zero => exact absurd h nofun
        | succ depth =>
          dsimp only at h
          split_ifs at h
          obtain ⟨vs, -, heq⟩ := Option.map_eq_some_iff.mp h
          rw [← (Prod.mk.inj heq).1]
          exact .other fun _ => nofun
      | map p members =>
        cases depth with
        | zero => exact absurd h nofun
        | succ depth =>
          dsimp only at h
          split_ifs at h
          obtain ⟨⟨ms, left₂⟩, hms, heq⟩ := Option.map_eq_some_iff.mp h
          rw [← (Prod.mk.inj heq).1]
          exact Json.distinct_ofMembers
            (distinct_membersWith (fun hv => ih depth (Nat.lt_succ_self depth) hv) hms)

end References

/-- The value of a text names no member twice. -/
lemma distinct_parse? {s : String} {j : Json} (h : parse? s = some j) : j.Distinct := by
  unfold parse? at h
  split_ifs at h
  simp only [Option.bind_eq_bind, Option.bind_eq_some_iff] at h
  obtain ⟨tokens, -, document, -, h⟩ := h
  cases document with
  | none =>
    rw [← Option.some.inj h]
    exact .other fun _ => nofun
  | some node =>
    unfold Node.value? at h
    simp only [Option.bind_eq_bind, Option.bind_eq_some_iff] at h
    obtain ⟨numbered, -, h⟩ := h
    obtain ⟨⟨v, left⟩, hv, rfl⟩ := Option.map_eq_some_iff.mp h
    exact References.distinct_value? hv

end Yaml

end TaskSeries
