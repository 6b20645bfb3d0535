import Mathlib.Data.List.Basic
import TaskSeries.Config.Tiers
import TaskSeries.Proofs.Config.Setting
import TaskSeries.Proofs.Ends
import TaskSeries.Proofs.Text.Characters

/-!
# Settings from texts

The environment and the overrides assign texts to settings one after another. Every setting then has
the value of the last text that it was assigned (`Config.Assigns.get`), and the limit is never zero
(`Config.Assigns.limit_pos`). What the environment assigns (`Config.assigns_of_applyEnv`) and what the
overrides assign (`Config.assigns_of_applyOverrides`) is read off their names alone.
-/

namespace TaskSeries

open TaskSeries.Text

namespace Config

/-! ## Assignments -/

/-- One configuration comes from another one by assigning texts to settings in order. -/
inductive Assigns : Config → List (SettingKey × String) → Config → Prop
  | nil (c : Config) : Assigns c [] c
  | cons {c c' : Config} {k : SettingKey} {text : String} {v : k.Value}
      {rest : List (SettingKey × String)} (hread : k.read text = .ok v)
      (hrest : Assigns (c.put k v) rest c') : Assigns c ((k, text) :: rest) c'

/-- The texts that are assigned to a setting. -/
def textsOf (k : SettingKey) (assigned : List (SettingKey × String)) : List String :=
  assigned.filterMap fun a => if a.1 = k then some a.2 else none

section
variable {c c' : Config} {assigned : List (SettingKey × String)}

/-- A setting has the value of the last text that it was assigned. -/
theorem Assigns.get (h : Assigns c assigned c') (k : SettingKey) :
    lastRead (fun text => (k.read text).toOption) (c.get k) (textsOf k assigned) = some (c'.get k) := by
  induction h with
  | nil c => rfl
  | @cons c c' k' text v rest hread hrest ih =>
    by_cases hk : k' = k
    · subst hk
      have hfirst : lastRead (fun text => (k'.read text).toOption) (c.get k') [text] = some v :=
        congrArg Except.toOption hread
      have htexts : textsOf k' ((k', text) :: rest) = [text] ++ textsOf k' rest := by
        rw [textsOf, List.filterMap_cons, if_pos rfl]
        rfl
      rw [htexts, lastRead_append hfirst, ← ih, get_put]
    · have htexts : textsOf k ((k', text) :: rest) = textsOf k rest := by
        rw [textsOf, List.filterMap_cons, if_neg hk]
        rfl
      rw [htexts, ← ih, get_put_of_ne hk]

lemma pos_of_positive {text : String} {n : Nat} (h : Setting.positive text = .ok n) : 0 < n := by
  unfold Setting.positive at h
  split at h
  · split_ifs at h with hzero
    rw [← Except.ok.inj h]
    exact Nat.pos_of_ne_zero hzero
  · exact absurd h nofun

/-- Whatever is assigned, a limit that was positive stays so. -/
theorem Assigns.limit_pos (h : Assigns c assigned c') (hpos : 0 < c.recurrence.limit) :
    0 < c'.recurrence.limit := by
  induction h with
  | nil c => exact hpos
  | @cons c c' k text v rest hread hrest ih =>
    refine ih ?_
    cases k with
    | limit => exact pos_of_positive hread
    | _ => exact hpos

end

/-- A setting is made by a key that is known and a text that its reader accepts. -/
lemma set_eq_ok {c c' : Config} {key text : String} :
    c.set key text = .ok c' ↔
      ∃ k v, SettingKey.ofText? key = some k ∧ k.read text = .ok v ∧ c.put k v = c' := by
  unfold set
  cases SettingKey.ofText? key with
  | none => exact ⟨nofun, fun ⟨_, _, hk, _⟩ => absurd hk nofun⟩
  | some k =>
    show (c.assign k text).mapError _ = _ ↔ _
    rw [mapError_eq_ok, assign_eq, map_eq_ok]
    constructor
    · rintro ⟨v, hv, hput⟩
      exact ⟨k, v, rfl, hv, hput⟩
    · rintro ⟨k', v, hk, hv, hput⟩
      obtain rfl := Option.some.inj hk
      exact ⟨v, hv, hput⟩

/-! ## The environment -/

section
variable {c c' : Config} {env : String → Option String}

/-- What the environment assigns to some settings. -/
def envAssigned (env : String → Option String) (ks : List SettingKey) : List (SettingKey × String) :=
  ks.filterMap fun k => (env k.envName).map (k, ·)

/-- The variables of an environment assign the settings that they name, one after another. -/
lemma assigns_of_foldlM {overrides : List (String × String)} {ks : List SettingKey}
    (hks : List.Forall₂ (fun o k => o.1 = k.envName ∧ SettingKey.ofText? o.2 = some k) overrides ks)
    (h : overrides.foldlM (fun c (name, key) =>
      match env name with
      | some text => c.set key text
      | none => .ok c) c = .ok c') : Assigns c (envAssigned env ks) c' := by
  induction hks generalizing c with
  | nil =>
    obtain rfl := Except.ok.inj h
    exact .nil c
  | @cons o k overrides ks hk hrest ih =>
    rw [List.foldlM_cons, bind_eq_ok] at h
    obtain ⟨next, hnext, h⟩ := h
    obtain ⟨name, key⟩ := o
    obtain ⟨rfl, hkey⟩ : name = k.envName ∧ SettingKey.ofText? key = some k := hk
    dsimp only at hnext
    rw [envAssigned, List.filterMap_cons]
    cases htext : env k.envName with
    | none =>
      rw [htext] at hnext
      obtain rfl := Except.ok.inj hnext
      exact ih h
    | some text =>
      rw [htext] at hnext
      obtain ⟨k', v, hk', hread, rfl⟩ := set_eq_ok.mp hnext
      obtain rfl := Option.some.inj (hkey.symm.trans hk')
      exact .cons hread (ih h)

/-- The environment assigns to every setting the text of its own variable, if it has one. -/
lemma assigns_of_applyEnv (h : applyEnv env c = .ok c') :
    ∃ assigned, Assigns c assigned c' ∧ ∀ k, textsOf k assigned = (env k.envName).toList := by
  have hks : List.Forall₂ (fun o k => o.1 = k.envName ∧ SettingKey.ofText? o.2 = some k)
      envOverrides [.dbPath, .enabled, .limit, .policy, .confirmation] := by repeat' constructor
  refine ⟨_, assigns_of_foldlM hks h, fun k => ?_⟩
  rw [textsOf, envAssigned, List.filterMap_filterMap]
  have hown : ∀ k', (Option.bind ((env k'.envName).map (k', ·)) fun a : SettingKey × String =>
      if a.1 = k then some a.2 else none) = if k' = k then env k.envName else none := by
    intro k'
    split_ifs with hk
    · subst hk
      cases env k'.envName with
      | none => rfl
      | some text => exact if_pos rfl
    · cases env k'.envName with
      | none => rfl
      | some text => exact if_neg hk
  simp only [hown]
  generalize env k.envName = text
  cases k <;> cases text <;> rfl

end

/-! ## Overrides -/

/-- The setting that an override names, with the text that it gives to it. -/
def named? (item : String) : Option (SettingKey × String) :=
  match splitOverride item with
  | .ok (key, text) => (SettingKey.ofText? key).map (·, text)
  | .error _ => none

section
variable {c c' : Config} {item : String} {items : List String} {k : SettingKey}

/-- An item overrides a setting when it names it, and with the text behind the sign. -/
lemma override?_eq : k.override? item =
    (named? item).bind fun a => if a.1 = k then some a.2 else none := by
  unfold SettingKey.override? named?
  cases splitOverride item with
  | error f => rfl
  | ok parts =>
    obtain ⟨key, text⟩ := parts
    show (if key ∈ k.names then some text else none) = _
    simp only [← SettingKey.ofText?_eq_some_iff]
    cases SettingKey.ofText? key with
    | none => rfl
    | some k' => simp only [Option.some.injEq, Option.map_some, Option.bind_some]

/-- An item takes effect when it names a setting and the text is accepted there. -/
lemma override_eq_ok : c.override item = .ok c' ↔
    ∃ k text v, named? item = some (k, text) ∧ k.read text = .ok v ∧ c.put k v = c' := by
  unfold override named?
  rw [bind_eq_ok]
  cases splitOverride item with
  | error f =>
    exact ⟨fun ⟨_, hparts, _⟩ => absurd hparts nofun, fun ⟨_, _, _, hk, _⟩ => absurd hk nofun⟩
  | ok parts =>
    obtain ⟨key, text⟩ := parts
    constructor
    · rintro ⟨_, hparts, hset⟩
      obtain rfl := Except.ok.inj hparts
      obtain ⟨k, v, hk, hread, hput⟩ := set_eq_ok.mp hset
      refine ⟨k, text, v, ?_, hread, hput⟩
      show (SettingKey.ofText? key).map _ = _
      rw [hk]
      rfl
    · rintro ⟨k, text', v, hk, hread, hput⟩
      obtain ⟨k', hk', hpair⟩ := Option.map_eq_some_iff.mp hk
      obtain ⟨rfl, rfl⟩ := Prod.mk.inj hpair
      exact ⟨(key, text), rfl, set_eq_ok.mpr ⟨k', v, hk', hread, hput⟩⟩

lemma applyOverrides_cons : c.applyOverrides (item :: items) = (c', none) ↔
    ∃ next, c.override item = .ok next ∧ next.applyOverrides items = (c', none) := by
  unfold applyOverrides
  rw [applyAll]
  cases c.override item with
  | error f => exact ⟨nofun, fun ⟨_, hnext, _⟩ => absurd hnext nofun⟩
  | ok next =>
    refine ⟨fun h => ⟨next, rfl, h⟩, ?_⟩
    rintro ⟨_, hnext, h⟩
    obtain rfl := Except.ok.inj hnext
    exact h

/-- Overrides assign the texts that they give to the settings that they name. -/
lemma assigns_of_applyOverrides (h : c.applyOverrides items = (c', none)) :
    Assigns c (items.filterMap named?) c' := by
  induction items generalizing c with
  | nil =>
    obtain rfl := congrArg Prod.fst h
    exact .nil c
  | cons item rest ih =>
    obtain ⟨next, hnext, h⟩ := applyOverrides_cons.mp h
    obtain ⟨k, text, v, hk, hread, rfl⟩ := override_eq_ok.mp hnext
    rw [List.filterMap_cons, hk]
    exact .cons hread (ih h)

lemma textsOf_named (k : SettingKey) (items : List String) :
    textsOf k (items.filterMap named?) = items.filterMap k.override? := by
  rw [textsOf, List.filterMap_filterMap]
  simp only [← override?_eq]

/-- A key has no sign that separates it from a text and no blanks, and it does not begin with the mark of
an override itself. -/
lemma plain_of_mem_names {name : String} (h : name ∈ k.names) :
    (∀ c ∈ name.toList, (c == '=' || c == ':') = false ∧ isBlank c = false) ∧
    ∀ rest, afterStart ['r', 'c', '.'] (name.toList ++ rest) = none := by
  have hfixed : name.toList.all (fun c => !(c == '=' || c == ':') && !isBlank c) = true ∧
      ∀ rest, afterStart ['r', 'c', '.'] (name.toList ++ rest) = none := by
    cases k <;> simp only [SettingKey.names, List.mem_cons, List.not_mem_nil, or_false] at h
    all_goals
      rcases h with rfl | rfl
      all_goals exact ⟨by decide, fun _ => rfl⟩
  refine ⟨fun c hc => ?_, hfixed.2⟩
  have hplain := List.all_eq_true.mp hfixed.1 c hc
  rwa [Bool.and_eq_true, Bool.not_eq_true', Bool.not_eq_true'] at hplain

/-- The mark of an override is taken off, and it is not looked for behind blanks or in a key. -/
lemma afterStart_mark {start before name : String} (hstart : start ∈ ["", "rc."])
    (hbefore : Blank before) (hname : name ∈ k.names) (rest : List Char) :
    (afterStart ['r', 'c', '.'] (start.toList ++ (before.toList ++ (name.toList ++ rest)))).getD
        (start.toList ++ (before.toList ++ (name.toList ++ rest))) =
      before.toList ++ (name.toList ++ rest) := by
  rcases List.mem_pair.mp hstart with rfl | rfl
  · have hnone : afterStart ['r', 'c', '.'] (before.toList ++ (name.toList ++ rest)) = none := by
      cases hblanks : before.toList with
      | nil => exact (plain_of_mem_names hname).2 rest
      | cons c cs =>
        have hc : isBlank c = true := hbefore c (hblanks ▸ List.mem_cons_self)
        refine if_neg ?_
        rintro rfl
        exact absurd hc (by decide)
    rw [String.toList_empty, List.nil_append, hnone]
    rfl
  · exact congrArg (Option.getD · _) (afterStart_append ['r', 'c', '.'] _)

/-- An override is split into the key of a setting and its text, whatever blanks stand around the key. -/
lemma splitOverride_name {start before name behind : String} {sign : Char} (hstart : start ∈ ["", "rc."])
    (hbefore : Blank before) (hname : name ∈ k.names) (hbehind : Blank behind)
    (hsign : sign ∈ ['=', ':']) (text : String) :
    splitOverride (start ++ before ++ name ++ behind ++ String.singleton sign ++ text) =
      .ok (name, text) := by
  obtain ⟨hplain, -⟩ := plain_of_mem_names hname
  have hkey : ∀ c ∈ before.toList ++ name.toList ++ behind.toList, (c == '=' || c == ':') = false := by
    have hblank : ∀ c, isBlank c = true → (c == '=' || c == ':') = false := by
      intro c hc
      rw [Bool.or_eq_false_iff, beq_eq_false_iff_ne, beq_eq_false_iff_ne]
      constructor
      all_goals
        rintro rfl
        exact absurd hc (by decide)
    intro c hc
    rw [List.mem_append, List.mem_append] at hc
    rcases hc with (hc | hc) | hc
    · exact hblank c (hbefore c hc)
    · exact (hplain c hc).1
    · exact hblank c (hbehind c hc)
  have hsign' : (sign == '=' || sign == ':') = true := by
    rcases List.mem_pair.mp hsign with rfl | rfl <;> rfl
  unfold splitOverride
  simp only [String.toList_append, String.toList_singleton, List.append_assoc, List.singleton_append]
  rw [afterStart_mark hstart hbefore hname, ← List.append_assoc, ← List.append_assoc,
    splitFirst_append hsign' hkey]
  dsimp only
  rw [trimChars_blanks hbefore hbehind, trimChars_eq_self fun c hc => (hplain c hc).2,
    String.ofList_toList, String.ofList_toList]

/-- An override names a setting by each of its keys, with the mark or without it. -/
theorem override?_name {start name : String} {sign : Char} (hstart : start ∈ ["", "rc."])
    (hname : name ∈ k.names) (hsign : sign ∈ ['=', ':']) (text : String) :
    k.override? (start ++ name ++ String.singleton sign ++ text) = some text := by
  have hnone : Blank "" := by decide
  have hsplit := splitOverride_name hstart hnone hname hnone hsign text
  rw [String.append_empty, String.append_empty] at hsplit
  unfold SettingKey.override?
  rw [hsplit]
  exact if_pos hname

/-- Two overrides next to each other that name different settings can change places. -/
theorem applyOverrides_swap {before behind : List String} {a b : String}
    (hapart : ∀ k : SettingKey, k.override? a = none ∨ k.override? b = none)
    (h : c.applyOverrides (before ++ a :: b :: behind) = (c', none)) :
    c.applyOverrides (before ++ b :: a :: behind) = (c', none) := by
  induction before generalizing c with
  | nil =>
    obtain ⟨_, hfirst, h⟩ := applyOverrides_cons.mp h
    obtain ⟨_, hsecond, h⟩ := applyOverrides_cons.mp h
    obtain ⟨k, text, v, hk, hread, rfl⟩ := override_eq_ok.mp hfirst
    obtain ⟨k', text', v', hk', hread', rfl⟩ := override_eq_ok.mp hsecond
    have hne : k ≠ k' := by
      rintro rfl
      have ha : k.override? a = some text := by rw [override?_eq, hk, Option.bind_some, if_pos rfl]
      have hb : k.override? b = some text' := by rw [override?_eq, hk', Option.bind_some, if_pos rfl]
      rcases hapart k with hnone | hnone
      · exact absurd (ha.symm.trans hnone) nofun
      · exact absurd (hb.symm.trans hnone) nofun
    rw [put_comm hne] at h
    exact applyOverrides_cons.mpr ⟨_, override_eq_ok.mpr ⟨k', text', v', hk', hread', rfl⟩,
      applyOverrides_cons.mpr ⟨_, override_eq_ok.mpr ⟨k, text, v, hk, hread, rfl⟩, h⟩⟩
  | cons item rest ih =>
    obtain ⟨next, hnext, h⟩ := applyOverrides_cons.mp h
    exact applyOverrides_cons.mpr ⟨next, hnext, ih h⟩

end

end Config

end TaskSeries
