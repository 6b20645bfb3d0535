import TaskSeries.Proofs.Config.Assignments
import TaskSeries.Proofs.Config.Files

/-!
# Which value of a setting counts

The value of a setting can be written in the file of the project, the file of the user, the environment
and the overrides. Of all that is written for it the last one counts, in this order, and without any
it has its standard value (`Config.get_of_load`). This asks for files that are objects or null as far as
their sections go; a list as a whole file takes back what the files before it say, and a policy without
a name leaves the one before it (`Config.load_list_and_nameless`).
-/

namespace TaskSeries

open Json

/-! ## What is written for a setting -/

/-- What is written for a setting: a value in a file, or a text elsewhere. -/
inductive Written
  | value (j : Json)
  | text (s : String)

namespace SettingKey

/-- The value of a setting that is written. -/
def ofWritten? (k : SettingKey) : Written → Option k.Value
  | .value j => k.ofJson? j
  | .text s => (k.read s).toOption

/-- All that is written for a setting: in the files, in the environment and in the overrides. -/
def written (k : SettingKey) (files : List Json) (env : String → Option String) (items : List String) :
    List Written :=
  (files.filterMap (specified? k.path)).map .value ++ (env k.envName).toList.map .text ++
    (items.filterMap k.override?).map .text

end SettingKey

namespace Config

variable {read env : String → Option String} {source : ConfigSource} {loaded : Loaded}

/-! ## Loading -/

lemma length_paths_le (source : ConfigSource) : source.paths.length ≤ 2 := by
  cases source with
  | explicit path => exact Nat.le_succ 1
  | tiers project user =>
    rw [ConfigSource.paths, List.length_map]
    exact List.length_filterMap_le id [project, user]

/-- No file names a member twice. -/
lemma distinct_of_mem_readable {paths : List String} {file : String × Json}
    (h : file ∈ readable read paths) : file.2.Distinct := by
  obtain ⟨path, -, hfile⟩ := List.mem_filterMap.mp h
  obtain ⟨text, -, hparse⟩ := Option.bind_eq_some_iff.mp hfile
  obtain ⟨j, hj, rfl⟩ := Option.map_eq_some_iff.mp hparse
  exact Yaml.distinct_parse? hj

lemma ofFile_eq_ok {path : String} {c : Config} (h : ofFile read path = .ok c) :
    ofTiers ((readable read [path]).map (·.2)) = .ok c := by
  unfold ofFile at h
  cases hread : read path with
  | none =>
    rw [hread] at h
    exact absurd h nofun
  | some text =>
    rw [hread, Option.bind_some] at h
    cases hparse : Yaml.parse? text with
    | none =>
      rw [hparse] at h
      exact absurd h nofun
    | some value =>
      have hfiles : readable read [path] = [(path, value)] := by
        rw [readable, List.filterMap_cons, hread, Option.bind_some, hparse]
        rfl
      rw [hparse] at h
      dsimp only at h
      rw [hfiles]
      split at h
      · exact absurd h nofun
      · exact h

/-- A configuration comes from the files that can be read and then from the environment. -/
lemma load_eq_ok (h : load read env source = .ok loaded) :
    ∃ c, ofTiers ((readable read source.paths).map (·.2)) = .ok c ∧
      applyEnv env c = .ok loaded.config := by
  cases source with
  | explicit path =>
    obtain ⟨c, hfile, h⟩ := bind_eq_ok.mp h
    obtain ⟨c', henv, h⟩ := bind_eq_ok.mp h
    obtain rfl := Except.ok.inj h
    exact ⟨c, ofFile_eq_ok hfile, henv⟩
  | tiers project user =>
    obtain ⟨c, hfiles, h⟩ := bind_eq_ok.mp h
    obtain ⟨c', henv, h⟩ := bind_eq_ok.mp h
    obtain rfl := Except.ok.inj h
    exact ⟨c, hfiles, henv⟩

/-! ## Precedence -/

/-- Of all that is written for a setting the last one counts: files, the environment and overrides in
this order. Overrides of different settings can change places, every key of a setting names it, and
the limit is never zero. -/
theorem get_of_load {items : List String} {final : Config} (hload : load read env source = .ok loaded)
    (htiers : ∀ file ∈ readable read source.paths, IsTier file.2)
    (hitems : loaded.config.applyOverrides items = (final, none)) :
    (∀ k : SettingKey, lastRead k.ofWritten? (standard k)
      (k.written ((readable read source.paths).map (·.2)) env items) = some (final.get k)) ∧
    (∀ before a b behind, items = before ++ a :: b :: behind →
      (∀ k : SettingKey, k.override? a = none ∨ k.override? b = none) →
      loaded.config.applyOverrides (before ++ b :: a :: behind) = (final, none)) ∧
    (∀ (k : SettingKey) (start name : String) (sign : Char) (text : String), start ∈ ["", "rc."] →
      name ∈ k.names → sign ∈ ['=', ':'] →
      k.override? (start ++ name ++ String.singleton sign ++ text) = some text) ∧
    0 < loaded.config.recurrence.limit ∧ 0 < final.recurrence.limit := by
  obtain ⟨c, hc, henv⟩ := load_eq_ok hload
  obtain ⟨assigned, hassigned, htexts⟩ := assigns_of_applyEnv henv
  have hoverridden := assigns_of_applyOverrides hitems
  have hpos : 0 < loaded.config.recurrence.limit :=
    hassigned.limit_pos (Nat.pos_of_ne_zero (ofTiers_eq_ok hc).2)
  refine ⟨fun k => ?_, ?_, fun k start name sign text hstart hname hsign =>
    override?_name hstart hname hsign text, hpos, hoverridden.limit_pos hpos⟩
  · have hfiles : lastRead k.ofJson? (standard k)
        (((readable read source.paths).map (·.2)).filterMap (specified? k.path)) = some (c.get k) := by
      refine get_of_ofTiers ?_ ?_ ?_ hc k
      · rw [List.length_map]
        exact (List.length_filterMap_le _ _).trans (length_paths_le source)
      · exact List.forall_mem_map.mpr htiers
      · exact List.forall_mem_map.mpr fun _ => distinct_of_mem_readable
    have henvironment := hassigned.get k
    rw [htexts] at henvironment
    have hoverrides := hoverridden.get k
    rw [textsOf_named] at hoverrides
    rw [SettingKey.written, lastRead_append (v := loaded.config.get k), lastRead_map]
    · exact hoverrides
    · rw [lastRead_append (v := c.get k), lastRead_map]
      · exact henvironment
      · rw [lastRead_map]
        exact hfiles
  · rintro before a b behind rfl hapart
    exact applyOverrides_swap hapart hitems

/-! ## Two files -/

/-- The file of a project, and that of a user who is not to be asked. -/
def quietFiles : String → Option String
  | "task-recur/config.yaml" => some "recurrence:\n  limit: 3\n  until_policy: expire\n"
  | "home/config.yaml" => some "recurrence:\n  limit: 4\nconfirmation: false\n"
  | _ => none

/-- An environment that names a policy. -/
def gateEnv : String → Option String
  | "TASK_RECUR_UNTIL_POLICY" => some "gate"
  | _ => none

/-- The directories of a project and a user. -/
def bothTiers : ConfigSource := .tiers (some "task-recur") (some "home")

/-- The limit is that of the user, the policy that of the environment, and the last override of
recurrence counts, wherever the one of the store stands. -/
theorem get_of_load_quiet :
    (∀ file ∈ readable quietFiles bothTiers.paths, IsTier file.2) ∧
    ∃ loaded, load quietFiles gateEnv bothTiers = .ok loaded ∧
      loaded.sources = ["task-recur/config.yaml", "home/config.yaml"] ∧
      loaded.config.applyOverrides
        ["rc.recurrence=no", "data.location:tasks.db", "recurrence.enabled=yes"] =
          (⟨⟨true, 4, .gate⟩, false, "tasks.db"⟩, none) ∧
      loaded.config.applyOverrides
        ["rc.recurrence=no", "recurrence.enabled=yes", "data.location:tasks.db"] =
          (⟨⟨true, 4, .gate⟩, false, "tasks.db"⟩, none) ∧
      (∀ k : SettingKey, lastRead k.ofWritten? (standard k)
        (k.written ((readable quietFiles bothTiers.paths).map (·.2)) gateEnv
          ["rc.recurrence=no", "data.location:tasks.db", "recurrence.enabled=yes"]) =
        some (get ⟨⟨true, 4, .gate⟩, false, "tasks.db"⟩ k)) := by
  have htiers : ∀ file ∈ readable quietFiles bothTiers.paths, IsTier file.2 := by decide +kernel
  have hload : load quietFiles gateEnv bothTiers =
      .ok ⟨["task-recur/config.yaml", "home/config.yaml"],
        ⟨⟨true, 4, .gate⟩, false, ({} : Config).dbPath⟩⟩ := by
    decide +kernel
  have hitems : applyOverrides ⟨⟨true, 4, .gate⟩, false, ({} : Config).dbPath⟩
      ["rc.recurrence=no", "data.location:tasks.db", "recurrence.enabled=yes"] =
        (⟨⟨true, 4, .gate⟩, false, "tasks.db"⟩, none) := by
    decide +kernel
  obtain ⟨hlast, hswap, -⟩ := get_of_load hload htiers hitems
  refine ⟨htiers, _, hload, rfl, hitems, ?_, hlast⟩
  exact hswap ["rc.recurrence=no"] _ _ [] rfl fun k => by cases k <;> decide +kernel

/-- The file of a project, and that of a user which is a list. -/
def listFiles : String → Option String
  | "task-recur/config.yaml" => some "recurrence:\n  limit: 3\n"
  | "home/config.yaml" => some "[]\n"
  | _ => none

/-- The file of a project, and that of a user which names no policy in place of one. -/
def namelessFiles : String → Option String
  | "task-recur/config.yaml" => some "recurrence:\n  until_policy:\n    expire:\n"
  | "home/config.yaml" => some "recurrence:\n  until_policy: \x7b\x7d\n"
  | _ => none

/-- Objects in place of sections are not enough for the last value to count. A list as a whole file takes
back what the files before it say: the limit that is written is three, and it is one. An empty object is
no policy, but it leaves the policy of the file before it. -/
theorem load_list_and_nameless :
    ((∀ file ∈ readable listFiles bothTiers.paths, HasSections file.2) ∧
      ∃ loaded, load listFiles (fun _ => none) bothTiers = .ok loaded ∧
        loaded.config.applyOverrides [] = (loaded.config, none) ∧
        (lastRead SettingKey.limit.ofWritten? (standard .limit)
          (SettingKey.limit.written ((readable listFiles bothTiers.paths).map (·.2)) (fun _ => none) []) :
            Option Nat) = some 3 ∧
        loaded.config.recurrence.limit = 1) ∧
    ((∀ file ∈ readable namelessFiles bothTiers.paths, HasSections file.2) ∧
      ∃ loaded, load namelessFiles (fun _ => none) bothTiers = .ok loaded ∧
        loaded.config.applyOverrides [] = (loaded.config, none) ∧
        (lastRead SettingKey.policy.ofWritten? (standard .policy)
          (SettingKey.policy.written ((readable namelessFiles bothTiers.paths).map (·.2)) (fun _ => none)
            []) : Option ExpiryPolicy) = none ∧
        loaded.config.recurrence.policy = .expire) := by
  have hlist : load listFiles (fun _ => none) bothTiers =
      .ok ⟨["task-recur/config.yaml", "home/config.yaml"], {}⟩ := by
    decide +kernel
  have hnameless : load namelessFiles (fun _ => none) bothTiers =
      .ok ⟨["task-recur/config.yaml", "home/config.yaml"],
        ⟨⟨true, 1, .expire⟩, true, ({} : Config).dbPath⟩⟩ := by
    decide +kernel
  exact ⟨⟨by decide +kernel, _, hlist, rfl, by decide +kernel, rfl⟩,
    ⟨by decide +kernel, _, hnameless, rfl, by decide +kernel, rfl⟩⟩

end Config

end TaskSeries
