import TaskSeries.Proofs.Config.Assignments

/-!
# Blanks around the value of a setting

Every setting but one reads a text without the blanks around it (`SettingKey.read_trim`), and a policy is
read only from a text that has no blanks (`ExpiryPolicy.isBlank_of_ofText?`). So blanks around a value,
given by itself or in an override, matter exactly where they keep a policy from being read
(`Config.blanks_matter_iff`).
-/

namespace TaskSeries

open TaskSeries.Text

variable {k : SettingKey} {before behind text name : String}

/-! ## Policies -/

namespace ExpiryPolicy

variable {p : ExpiryPolicy}

/-- There are no blanks in the text of a policy. -/
lemma isBlank_of_ofText? (h : ofText? text = some p) : ∀ c ∈ text.toList, isBlank c = false := by
  have hlower : text.toList.map Char.toLower = "gate".toList ∨
      text.toList.map Char.toLower = "expire".toList := by
    unfold ofText? at h
    rw [ofName?.eq_def] at h
    split at h
    · next hname => exact .inl (by rw [← hname, String.toList_ofList])
    · next hname => exact .inr (by rw [← hname, String.toList_ofList])
    · exact absurd h nofun
  have hplain : (text.toList.map Char.toLower).all (fun c => !isBlank c) = true := by
    rcases hlower with hname | hname <;> rw [hname] <;> decide
  intro c hc
  have hc' := List.all_eq_true.mp hplain _ (List.mem_map_of_mem hc)
  rwa [isBlank_toLower, Bool.not_eq_true'] at hc'

/-- What is blank and stands next to the text of a policy is empty. -/
lemma eq_of_ofText?_blanks (hbefore : Blank before) (hbehind : Blank behind)
    (h : ofText? (before ++ text ++ behind) = some p) : before ++ text ++ behind = text := by
  have hnone : ∀ s, Blank s → (∀ c ∈ s.toList, isBlank c = false) → s = "" := by
    intro s hblank hplain
    refine String.toList_eq_nil_iff.mp (List.eq_nil_iff_forall_not_mem.mpr fun c hc => ?_)
    exact absurd ((hplain c hc).symm.trans (hblank c hc)) Bool.false_ne_true
  have hplain := isBlank_of_ofText? h
  simp only [String.toList_append, List.forall_mem_append] at hplain
  rw [hnone before hbefore hplain.1.1, hnone behind hbehind hplain.2, String.empty_append,
    String.append_empty]

end ExpiryPolicy

/-! ## Reading a value -/

namespace SettingKey

/-- Every setting but the policy reads a text without the blanks around it. -/
lemma read_trim (h : k ≠ policy) (text : String) :
    (k.read (trim text)).toOption = (k.read text).toOption := by
  have hswitch : Setting.switch (trim text) = Setting.switch text := by
    unfold Setting.switch keyword trim
    rw [String.toList_ofList, trimChars_trimChars]
  have hpositive : (Setting.positive (trim text)).toOption = (Setting.positive text).toOption := by
    -- the texts are alike for the reader, and only an error names the text that was given
    unfold Setting.positive trim
    rw [String.toList_ofList, trimChars_trimChars]
    cases natOfText? (trimChars text.toList) with
    | none => rfl
    | some n =>
      dsimp only
      split_ifs <;> rfl
  cases k with
  | policy => exact absurd rfl h
  | limit => exact hpositive
  | dbPath => exact congrArg some (trim_trim text)
  | enabled | confirmation => exact congrArg Except.toOption hswitch

lemma toOption_read_policy (text : String) :
    (policy.read text).toOption = ExpiryPolicy.ofText? text := by
  show (Setting.policy text).toOption = _
  unfold Setting.policy
  cases ExpiryPolicy.ofText? text <;> rfl

/-- Blanks around a text change what is read of it exactly where they keep a policy from being read. -/
lemma read_blanks_iff (hbefore : Blank before) (hbehind : Blank behind) :
    (k.read (before ++ text ++ behind)).toOption = (k.read text).toOption ↔
      (k = policy → before ++ text ++ behind = text ∨ ExpiryPolicy.ofText? text = none) := by
  by_cases hk : k = policy
  · subst hk
    rw [toOption_read_policy, toOption_read_policy]
    constructor
    · intro hsame _
      cases hp : ExpiryPolicy.ofText? text with
      | none => exact .inr rfl
      | some p => exact .inl (ExpiryPolicy.eq_of_ofText?_blanks hbefore hbehind (hsame.trans hp))
    · intro h
      rcases h rfl with heq | hnone
      · rw [heq]
      · cases hp : ExpiryPolicy.ofText? (before ++ text ++ behind) with
        | none => exact hnone.symm
        | some p =>
          rw [← ExpiryPolicy.eq_of_ofText?_blanks hbefore hbehind hp]
          exact hp.symm
  · refine iff_of_true ?_ fun h => absurd h hk
    rw [← read_trim hk, trim_blanks hbefore hbehind, read_trim hk]

end SettingKey

/-! ## Setting a value -/

namespace Config

variable {c : Config}

/-- The configuration after it was to be changed, and whether it was: a failure leaves it as it is. -/
def after (c : Config) : Except Fault Config → Config × Bool
  | .ok next => (next, true)
  | .error _ => (c, false)

/-- Two texts do the same to a setting if they are read alike, and only then. -/
lemma after_set_eq_iff {text' : String} (hname : name ∈ k.names) :
    c.after (c.set name text) = c.after (c.set name text') ↔
      (k.read text).toOption = (k.read text').toOption := by
  unfold set
  rw [SettingKey.ofText?_eq_some_iff.mpr hname]
  dsimp only
  rw [assign_eq, assign_eq]
  cases k.read text with
  | error f =>
    cases k.read text' with
    | error f' => exact iff_of_true rfl rfl
    | ok v' => exact iff_of_false (fun h => absurd (congrArg Prod.snd h) nofun) nofun
  | ok v =>
    cases k.read text' with
    | error f' => exact iff_of_false (fun h => absurd (congrArg Prod.snd h) nofun) nofun
    | ok v' =>
      constructor
      · intro h
        have hput : c.put k v = c.put k v' := congrArg Prod.fst h
        have hget : (c.put k v).get k = (c.put k v').get k := congrArg (get · k) hput
        rw [get_put, get_put] at hget
        exact congrArg some hget
      · intro h
        rw [Option.some.inj h]

/-- An item that can be split has the effect of the assignment that it writes. -/
lemma override_eq_set {item : String} (h : splitOverride item = .ok (name, text)) :
    c.override item = c.set name text := by
  unfold override
  rw [h]
  rfl

/-- Blanks around the value of a setting matter for a policy only. A setting that is given a text is the
same afterwards as with the text trimmed, and both fail or neither does, unless the text is that of a
policy with blanks around it, which is refused. In an override the blanks around key and value do not
matter either, with the same exception. -/
theorem blanks_matter_iff (c : Config) (hname : name ∈ k.names) (text : String) :
    (c.after (c.set name text) = c.after (c.set name (trim text)) ↔
      (k = .policy → trim text = text ∨ ExpiryPolicy.ofText? (trim text) = none)) ∧
    ∀ (start b₁ b₂ b₃ b₄ : String) (sign : Char), start ∈ ["", "rc."] → sign ∈ ['=', ':'] →
      Blank b₁ → Blank b₂ → Blank b₃ → Blank b₄ →
      (c.after (c.override (start ++ b₁ ++ name ++ b₂ ++ String.singleton sign ++ (b₃ ++ text ++ b₄))) =
        c.after (c.override (start ++ name ++ String.singleton sign ++ text)) ↔
        (k = .policy → b₃ ++ text ++ b₄ = text ∨ ExpiryPolicy.ofText? text = none)) := by
  constructor
  · obtain ⟨before, behind, hbefore, hbehind, htext⟩ := exists_blanks text
    have hread := @SettingKey.read_blanks_iff k before behind (trim text) hbefore hbehind
    rw [htext] at hread
    rw [after_set_eq_iff hname, hread]
    exact imp_congr_right fun _ => or_congr_left eq_comm
  · intro start b₁ b₂ b₃ b₄ sign hstart hsign h₁ h₂ h₃ h₄
    have hnone : Blank "" := by decide
    have hplain := splitOverride_name hstart hnone hname hnone hsign text
    rw [String.append_empty, String.append_empty] at hplain
    rw [override_eq_set hplain, override_eq_set (splitOverride_name hstart h₁ hname h₂ hsign _),
      after_set_eq_iff hname, SettingKey.read_blanks_iff h₃ h₄]

/-- A limit is read from a text with blanks around it, and blanks around the key do no harm. -/
theorem blanks_matter_iff_spacedLimit :
    let c : Config := {}
    "recurrence.limit" ∈ SettingKey.limit.names ∧
    c.after (c.set "recurrence.limit" "\t4 ") = c.after (c.set "recurrence.limit" "4") ∧
    c.after (c.override "rc. recurrence.limit = 4 ") = c.after (c.override "rc.recurrence.limit=4") ∧
    c.after (c.override "rc. recurrence.limit = 4 ") =
      ({ c with recurrence := { c.recurrence with limit := 4 } }, true) := by
  intro c
  have hname : "recurrence.limit" ∈ SettingKey.limit.names := List.mem_singleton.mpr rfl
  have htrim : trim "\t4 " = "4" := by decide +kernel
  have hset := (blanks_matter_iff c hname "\t4 ").1.mpr nofun
  rw [htrim] at hset
  have hoverride := ((blanks_matter_iff c hname "4").2 "rc." " " " " " " " " '=' (by decide) (by decide)
    (by decide) (by decide) (by decide) (by decide)).mpr nofun
  exact ⟨hname, hset, hoverride, by decide +kernel⟩

/-- A policy with a blank in front is refused, and so is an override that has blanks around its sign. -/
theorem blanks_matter_policy :
    let c : Config := {}
    let expiring : Config := { c with recurrence := { c.recurrence with policy := .expire } }
    "recurrence.until_policy" ∈ SettingKey.policy.names ∧
    c.after (c.set "recurrence.until_policy" " expire") = (c, false) ∧
    c.after (c.set "recurrence.until_policy" (trim " expire")) = (expiring, true) ∧
    c.after (c.override "recurrence.until_policy = expire") = (c, false) ∧
    c.after (c.override "recurrence.until_policy=expire") = (expiring, true) ∧ c ≠ expiring := by
  decide +kernel

end Config

end TaskSeries
