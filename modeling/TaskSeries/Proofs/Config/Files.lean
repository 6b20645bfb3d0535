import TaskSeries.Config.Tiers
import TaskSeries.Proofs.Config.Setting
import TaskSeries.Proofs.Ends
import TaskSeries.Proofs.Yaml.Distinct

/-!
# Settings in files

A configuration that is read from merged files has every setting as the last file says that specifies
it, and otherwise as the defaults say (`Config.get_of_ofTiers`). Null specifies nothing.
-/

namespace TaskSeries

open Json

namespace Config

/-! ## Reading a record -/

section
variable {α : Type} {members : List (String × Json)} {key : String} {path : List String}
  {read : Json → Option α} {standard : α} {j : Json}

/-- A value below a key is read there, and is the standard one where the key is missing. -/
lemma readAt_obj_cons : readAt (key :: path) read standard (.obj members) =
    match lookup key members with
    | none => some standard
    | some s => readAt path read standard s := by
  unfold readAt
  rw [valueAt?]
  show (match (lookup key members).bind (valueAt? path) with | none => _ | some v => _) = _
  cases lookup key members <;> rfl

/-- A field of a record is a value at a path of one key. -/
lemma field_eq_readAt : field members key standard read = readAt [key] read standard (.obj members) := by
  rw [readAt_obj_cons, field]
  cases lookup key members <;> rfl

/-- A part of a field is read where the field has it, and a missing field has the standard parts. -/
lemma readAt_of_field {β : Type} {readField : Json → Option β} {standardField value : β} (part : β → α)
    (h : field members key standardField readField = some value)
    (hpart : ∀ s, lookup key members = some s → readField s = some value →
      readAt path read (part standardField) s = some (part value)) :
    readAt (key :: path) read (part standardField) (.obj members) = some (part value) := by
  rw [readAt_obj_cons]
  unfold field at h
  cases hs : lookup key members with
  | none =>
    rw [hs] at h
    exact congrArg (fun v => some (part v)) (Option.some.inj h)
  | some s =>
    rw [hs] at h
    exact hpart s hs h

/-- What is a record and no list is an object. -/
lemma eq_obj_of_record? {names : List String} (h : record? names j = some members)
    (hlist : ∀ items, j ≠ .arr items) : j = .obj members := by
  cases j with
  | obj members' => rw [Option.some.inj h]
  | arr items => exact absurd rfl (hlist items)
  | _ => exact absurd h nofun

end

/-- Neither the value as a whole nor a section of it is a list. -/
structure IsPlain (j : Json) : Prop where
  notList : ∀ items, j ≠ .arr items
  recurrence : ∀ items, j.get? "recurrence" ≠ some (.arr items)
  store : ∀ items, j.get? "store" ≠ some (.arr items)

/-- The section of recurrence has its settings where the configuration has them. -/
lemma readAt_of_recurrence {s : Json} {r : RecurrenceSettings}
    (h : RecurrenceSettings.ofJson? s = some r) (hlist : ∀ items, s ≠ .arr items) :
    readAt ["enabled"] bool? true s = some r.enabled ∧ readAt ["limit"] nat32? 1 s = some r.limit ∧
      readAt ["until_policy"] (fun j => j.caseName?.bind ExpiryPolicy.ofName?) .gate s =
        some r.policy := by
  unfold RecurrenceSettings.ofJson? at h
  simp only [Option.bind_eq_bind, Option.bind_eq_some_iff] at h
  obtain ⟨members, hrecord, enabled, henabled, limit, hlimit, policy, hpolicy, h⟩ := h
  obtain rfl := Option.some.inj h
  obtain rfl := eq_obj_of_record? hrecord hlist
  exact ⟨field_eq_readAt.symm.trans henabled, field_eq_readAt.symm.trans hlimit,
    field_eq_readAt.symm.trans hpolicy⟩

/-- The path of the store is read at its key in the section on the store. -/
lemma readAt_of_store {s : Json} {dbPath : String} (h : storeOfJson? s = some dbPath)
    (hlist : ∀ items, s ≠ .arr items) :
    readAt ["db_path"] str? ({} : Config).dbPath s = some dbPath := by
  unfold storeOfJson? at h
  simp only [Option.bind_eq_bind, Option.bind_eq_some_iff] at h
  obtain ⟨members, hrecord, h⟩ := h
  obtain rfl := eq_obj_of_record? hrecord hlist
  exact field_eq_readAt.symm.trans h

/-- A value that is read as a configuration has every setting where the configuration has it. -/
lemma readAt_of_ofJson? {j : Json} {c : Config} (h : ofJson? j = some c) (hplain : IsPlain j)
    (k : SettingKey) : readAt k.path k.ofJson? (standard k) j = some (c.get k) := by
  unfold ofJson? at h
  simp only [Option.bind_eq_bind, Option.bind_eq_some_iff] at h
  obtain ⟨members, hrecord, recurrence, hrecurrence, confirmation, hconfirmation, dbPath, hdbPath, h⟩ := h
  obtain rfl := Option.some.inj h
  obtain rfl := eq_obj_of_record? hrecord hplain.notList
  have hsection : ∀ s, lookup "recurrence" members = some s → ∀ items, s ≠ .arr items := by
    rintro s hs items rfl
    exact hplain.recurrence items hs
  have hstore : ∀ s, lookup "store" members = some s → ∀ items, s ≠ .arr items := by
    rintro s hs items rfl
    exact hplain.store items hs
  cases k with
  | enabled =>
    exact readAt_of_field RecurrenceSettings.enabled hrecurrence fun s hs hr =>
      (readAt_of_recurrence hr (hsection s hs)).1
  | limit =>
    exact readAt_of_field RecurrenceSettings.limit hrecurrence fun s hs hr =>
      (readAt_of_recurrence hr (hsection s hs)).2.1
  | policy =>
    exact readAt_of_field RecurrenceSettings.policy hrecurrence fun s hs hr =>
      (readAt_of_recurrence hr (hsection s hs)).2.2
  | confirmation => exact field_eq_readAt.symm.trans hconfirmation
  | dbPath =>
    exact readAt_of_field id hdbPath fun s hs hr => readAt_of_store hr (hstore s hs)

/-! ## Tiers -/

/-- The sections of a file are objects, as far as there is anything in them. -/
structure HasSections (j : Json) : Prop where
  recurrence : ∀ s ∈ j.get? "recurrence", s.IsRecord
  store : ∀ s ∈ j.get? "store", s.IsRecord

/-- A file that specifies settings as it is meant to: neither is it a list as a whole, nor is its policy an
empty object. -/
structure IsTier (j : Json) : Prop extends HasSections j where
  notList : j.arr? = none
  policy : ∀ x ∈ valueAt? SettingKey.policy.path j, x ≠ .obj []

instance (j : Json) : Decidable (HasSections j) :=
  decidable_of_iff ((∀ s ∈ j.get? "recurrence", s.IsRecord) ∧ ∀ s ∈ j.get? "store", s.IsRecord)
    ⟨fun h => ⟨h.1, h.2⟩, fun h => ⟨h.recurrence, h.store⟩⟩

instance (j : Json) : Decidable (IsTier j) :=
  decidable_of_iff
    (HasSections j ∧ j.arr? = none ∧ ∀ x ∈ valueAt? SettingKey.policy.path j, x ≠ .obj [])
    ⟨fun h => ⟨h.1, h.2.1, h.2.2⟩, fun h => ⟨h.toHasSections, h.notList, h.policy⟩⟩

section
variable {base tier : Json}

lemma IsTier.ne_arr (h : IsTier tier) (items : List Json) : tier ≠ .arr items := by
  rintro rfl
  exact absurd h.notList nofun

/-- A tier that is null or an object has only objects on the way to a setting. -/
lemma IsTier.opensTo (h : IsTier tier) (hrecord : tier.IsRecord) (k : SettingKey) :
    OpensTo k.path tier := by
  have hsection : ∀ {name field : String}, (∀ s ∈ tier.get? name, s.IsRecord) →
      OpensTo [name, field] tier := by
    intro name field hname
    refine hrecord.imp_right ?_
    rintro ⟨members, rfl⟩
    refine ⟨members, rfl, fun s hs => ?_⟩
    rcases hname s hs with hnull | ⟨fields, hfields⟩
    · exact Or.inl hnull
    · exact Or.inr ⟨fields, hfields, fun _ _ => trivial⟩
  cases k with
  | enabled | limit | policy => exact hsection h.recurrence
  | dbPath => exact hsection h.store
  | confirmation => exact hrecord.imp_right fun ⟨members, hm⟩ => ⟨members, hm, fun _ _ => trivial⟩

/-- A value that a file gives for a setting is read as if it stood alone. -/
lemma IsTier.readsLast (h : IsTier tier) (hdistinct : tier.Distinct) {k : SettingKey} {x : Json}
    (hx : specified? k.path tier = some x) : ReadsLast k.ofJson? x := by
  obtain ⟨hvalue, hnull⟩ := specified?_eq_some_iff.mp hx
  cases k with
  | policy => exact readsLast_caseName? _ (distinct_of_valueAt? hdistinct hvalue) hnull (h.policy x hvalue)
  | _ => exact readsLast_of_not_obj (fun _ => rfl) hnull

/-- An entry that is merged from records is no list. -/
lemma ne_arr_of_mergeEntry {old new : Option Json} (hold : ∀ items, old ≠ some (.arr items))
    (hnew : ∀ s ∈ new, s.IsRecord) : ∀ items, mergeEntry old new ≠ some (.arr items) := by
  cases new with
  | none =>
    rw [mergeEntry_none]
    exact hold
  | some s =>
    intro items hitems
    cases old with
    | none =>
      rcases hnew s rfl with rfl | ⟨members, rfl⟩
      · exact absurd hitems nofun
      · exact absurd hitems nofun
    | some base =>
      have hmerge : merge base s = .arr items := Option.some.inj hitems
      rcases hnew s rfl with rfl | ⟨overrides, rfl⟩
      · exact hold items (congrArg some ((merge_null base).symm.trans hmerge))
      · obtain ⟨members, hobj⟩ := exists_merge_obj base overrides
        exact absurd (hobj.symm.trans hmerge) nofun

lemma IsTier.isPlain (h : IsTier tier) : IsPlain tier :=
  ⟨h.ne_arr, fun items hitems => not_isRecord_arr items (h.recurrence _ hitems),
    fun items hitems => not_isRecord_arr items (h.store _ hitems)⟩

/-- A tier makes nothing a list. -/
lemma isPlain_merge (hbase : IsPlain base) (h : IsTier tier) (hdistinct : tier.Distinct) :
    IsPlain (merge base tier) := by
  by_cases hrecord : tier.IsRecord
  · rcases hrecord with rfl | ⟨overrides, rfl⟩
    · rw [merge_null]
      exact hbase
    · refine ⟨fun items hitems => ?_, ?_, ?_⟩
      · obtain ⟨members, hobj⟩ := exists_merge_obj base overrides
        exact absurd (hobj.symm.trans hitems) nofun
      · rw [get?_merge_obj hdistinct.nodup]
        exact ne_arr_of_mergeEntry hbase.recurrence h.recurrence
      · rw [get?_merge_obj hdistinct.nodup]
        exact ne_arr_of_mergeEntry hbase.store h.store
  · obtain ⟨hnull, hobj⟩ := not_or.mp hrecord
    rw [merge_of_not_obj hnull (not_exists.mp hobj)]
    exact h.isPlain

end

/-! ## Configurations from files -/

section
variable {file : Json} {files : List Json} {c : Config}

lemma isPlain_toJson (c : Config) : IsPlain c.toJson :=
  ⟨fun _ => nofun, fun _ h => absurd (Option.some.inj h) nofun,
    fun _ h => absurd (Option.some.inj h) nofun⟩

/-- At the path of each setting the standard configuration has the standard value. -/
lemma readAt_default (k : SettingKey) :
    readAt k.path k.ofJson? (standard k) ({} : Config).toJson = some (standard k) := by
  cases k <;> rfl

/-- What is neither null nor an object specifies nothing. -/
lemma valueAt?_path_of_not_obj (hobj : ∀ members, file ≠ .obj members) (k : SettingKey) :
    valueAt? k.path file = none := by
  have hget : ∀ name, file.get? name = none := by
    intro name
    cases file with
    | obj members => exact absurd rfl (hobj members)
    | _ => rfl
  cases k <;> exact congrArg (Option.bind · _) (hget _)

/-- A setting after a tier has the value that the tier specifies, and without one that of before. -/
lemma readAt_tier {base : Json} (h : IsTier file) (hdistinct : file.Distinct)
    (hrecord : file.IsRecord) {k : SettingKey} {v : k.Value}
    (hv : readAt k.path k.ofJson? (standard k) (merge base file) = some v) :
    (∀ x, specified? k.path file = some x → k.ofJson? x = some v) ∧
    (specified? k.path file = none → readAt k.path k.ofJson? (standard k) base = some v) :=
  readAt_merge k.ofJson?_null hdistinct (h.opensTo hrecord k) (fun _ => h.readsLast hdistinct) hv

lemma mergeAll_default :
    mergeAll (({} : Config).toJson :: files) = files.foldl merge ({} : Config).toJson := by
  have hstart : merge .null ({} : Config).toJson = ({} : Config).toJson := by
    rw [merge.eq_def]
    rfl
  rw [mergeAll, List.foldl_cons, hstart]

/-- A configuration made from files is read from the merged values and has a positive limit. -/
lemma ofTiers_eq_ok (h : ofTiers files = .ok c) :
    ofJson? (files.foldl merge ({} : Config).toJson) = some c ∧ c.recurrence.limit ≠ 0 := by
  unfold ofTiers at h
  rw [mergeAll_default] at h
  split at h
  · exact absurd h nofun
  · next c' hc =>
    obtain ⟨u, hu, rfl⟩ := map_eq_ok.mp h
    refine ⟨hc, fun hzero => ?_⟩
    unfold validate at hu
    rw [if_pos hzero] at hu
    exact absurd hu nofun

/-- The last of several files is null or an object, as nothing else is a configuration. -/
lemma record_of_ofJson? {base : Json} (h : ofJson? (merge base file) = some c) (htier : IsTier file) :
    file.IsRecord := by
  by_contra hrecord
  obtain ⟨hnull, hobj⟩ := not_or.mp hrecord
  rw [merge_of_not_obj hnull (not_exists.mp hobj)] at h
  cases file with
  | obj members => exact hobj ⟨members, rfl⟩
  | arr items => exact htier.ne_arr items rfl
  | _ => exact absurd h nofun

/-- A setting after the first file. What is no object there specifies nothing, and it leaves nothing of
the defaults for the files behind it either. -/
lemma readAt_first (h : IsTier file) (hdistinct : file.Distinct) {k : SettingKey} {v : k.Value}
    (hv : readAt k.path k.ofJson? (standard k) (merge ({} : Config).toJson file) = some v) :
    lastRead k.ofJson? (standard k) (specified? k.path file).toList = some v := by
  by_cases hrecord : file.IsRecord
  · obtain ⟨hsome, hnone⟩ := readAt_tier h hdistinct hrecord hv
    cases hx : specified? k.path file with
    | none => exact (readAt_default k).symm.trans (hnone hx)
    | some x => exact hsome x hx
  · obtain ⟨hnull, hobj⟩ := not_or.mp hrecord
    have hvalue := valueAt?_path_of_not_obj (not_exists.mp hobj) k
    rw [specified?_eq_none_iff.mpr (Or.inl hvalue)]
    rw [merge_of_not_obj hnull (not_exists.mp hobj)] at hv
    unfold readAt at hv
    rw [hvalue] at hv
    exact hv

/-- A configuration from at most two files has every setting as the last file says that specifies it. -/
lemma get_of_ofTiers (hlength : files.length ≤ 2) (htiers : ∀ file ∈ files, IsTier file)
    (hdistinct : ∀ file ∈ files, file.Distinct) (h : ofTiers files = .ok c) (k : SettingKey) :
    lastRead k.ofJson? (standard k) (files.filterMap (specified? k.path)) = some (c.get k) := by
  have hc := (ofTiers_eq_ok h).1
  have hplain : IsPlain (files.foldl merge ({} : Config).toJson) :=
    List.foldlRecOn files merge (isPlain_toJson {}) fun _ hbase file hmem =>
      isPlain_merge hbase (htiers file hmem) (hdistinct file hmem)
  have hread := readAt_of_ofJson? hc hplain k
  rw [List.filterMap_eq_flatMap_toList]
  match files with
  | [] => exact (readAt_default k).symm.trans hread
  | [file] =>
    rw [List.flatMap_singleton]
    exact readAt_first (htiers file List.mem_cons_self) (hdistinct file List.mem_cons_self) hread
  | [first, second] =>
    have hmem : second ∈ [first, second] := List.mem_cons_of_mem _ List.mem_cons_self
    obtain ⟨hsome, hnone⟩ := readAt_tier (htiers second hmem) (hdistinct second hmem)
      (record_of_ofJson? hc (htiers second hmem)) hread
    rw [List.flatMap_cons, List.flatMap_singleton]
    cases hx : specified? k.path second with
    | none =>
      rw [Option.toList_none, List.append_nil]
      exact readAt_first (htiers first List.mem_cons_self) (hdistinct first List.mem_cons_self)
        (hnone hx)
    | some x =>
      rw [Option.toList_some, lastRead, List.getLast?_concat]
      exact hsome x hx

end

end Config

end TaskSeries
