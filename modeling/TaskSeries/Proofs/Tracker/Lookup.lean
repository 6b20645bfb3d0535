import TaskSeries.Proofs.Store.RoundTrip
import TaskSeries.Proofs.Task.Id
import TaskSeries.Tracker.Lookup

/-!
# Finding tasks

A token addresses the id that it spells in full, or the ids whose written form it begins. The answer to a
token is the task of the only row that it addresses, and otherwise says whether there is none or more than
one (`Store.find_exact`). So a beginning that is enough for a task stays enough when it gets longer. There
are two reservations: a row that is addressed may be unreadable, and a token that is far too long for an id
fails instead of finding nothing (`Store.find_inexact_errands`).
-/

namespace TaskSeries

open TaskSeries.Text TaskSeries.Calendar

/-! ## What a token addresses -/

namespace TaskId

/-- A token without blanks around it addresses the id that it spells in full. When it spells none but is
long enough, it addresses all ids whose written form begins with it, letter case aside. -/
def IsAddressedBy (id : TaskId) (token : String) : Prop :=
  ofText? token = some id ∨
    ofText? token = none ∧ shortestStart ≤ token.utf8ByteSize ∧ lowerAscii token.toList <+: id.chars

instance (id : TaskId) (token : String) : Decidable (id.IsAddressedBy token) :=
  inferInstanceAs (Decidable (_ ∨ _ ∧ _ ∧ _))

variable {id other : TaskId} {token : String}

/-- A full id addresses the task that has it. -/
lemma isAddressedBy_full {full : TaskId} (h : ofText? token = some full) :
    id.IsAddressedBy token ↔ id = full := by
  unfold IsAddressedBy
  rw [h, Option.some_inj, eq_comm]
  simp

/-- Anything else addresses the tasks whose ids begin with it, if it is long enough. -/
lemma isAddressedBy_beginning (h : ofText? token = none) :
    id.IsAddressedBy token ↔
      shortestStart ≤ token.utf8ByteSize ∧ lowerAscii token.toList <+: id.chars := by
  unfold IsAddressedBy
  rw [h]
  simp

/-- Only digits and hyphens begin a written form. -/
lemma isIdChar_of_isAddressedBy (h : ofText? token = none) (hid : id.IsAddressedBy token) :
    (∀ c ∈ token.toList, isIdChar c = true) ∧ token.toList.length ≤ 36 := by
  obtain ⟨-, hbegins⟩ := (isAddressedBy_beginning h).mp hid
  refine ⟨fun c hc => ?_, ?_⟩
  · rw [← isIdChar_toLower]
    exact (spec_of_mem_chars (hbegins.subset (List.mem_map_of_mem hc))).1
  · have hlength := hbegins.length_le
    rw [length_chars] at hlength
    simpa [lowerAscii] using hlength

/-- A beginning of a written form addresses the ids that it begins, also when it is the full id. -/
lemma isAddressedBy_start (n : Nat) :
    other.IsAddressedBy (id.start n) ↔ shortestStart ≤ n ∧ id.chars.take n <+: other.chars := by
  by_cases hn : n < 36
  · rw [isAddressedBy_beginning (ofText?_start id hn), lowerAscii_start, utf8ByteSize_start,
      Nat.min_eq_left (by omega)]
  · -- the whole written form is a spelling, and begins no other one
    have hall : id.chars.take n = id.chars := List.take_of_length_le (by rw [length_chars]; omega)
    have hlong : shortestStart ≤ n := Nat.le_trans (by decide) (Nat.le_of_not_lt hn)
    rw [start_of_le id (Nat.le_of_not_lt hn), isAddressedBy_full (ofText?_text id), hall]
    constructor
    · rintro rfl
      exact ⟨hlong, List.prefix_refl _⟩
    · rintro ⟨-, hbegins⟩
      have hchars := hbegins.eq_of_length (by rw [length_chars, length_chars])
      exact text_injective (congrArg String.ofList hchars.symm)

/-- A longer beginning of a written form addresses fewer ids. -/
lemma isAddressedBy_start_of_le {n m : Nat} (hn : shortestStart ≤ n) (hle : n ≤ m)
    (h : other.IsAddressedBy (id.start m)) : other.IsAddressedBy (id.start n) := by
  obtain ⟨-, hbegins⟩ := (isAddressedBy_start m).mp h
  exact (isAddressedBy_start n).mpr ⟨hn, (List.take_prefix_take_left hle).trans hbegins⟩

lemma isAddressedBy_start_self {n : Nat} (hn : shortestStart ≤ n) : id.IsAddressedBy (id.start n) :=
  (isAddressedBy_start n).mpr ⟨hn, List.take_prefix n id.chars⟩

end TaskId

namespace Store

/-- The rows that a token addresses. -/
def addressed (s : Store) (token : String) : List Row :=
  s.rows.filter fun r => r.id.IsAddressedBy token

/-- A token is too long for the store to compare it with its rows. -/
def IsTooLong (s : Store) (token : String) : Prop :=
  s.rows ≠ [] ∧ TaskId.ofText? token = none ∧ (∀ c ∈ token.toList, TaskId.isIdChar c = true) ∧
    longestStart < token.toList.length

instance (s : Store) (token : String) : Decidable (s.IsTooLong token) :=
  inferInstanceAs (Decidable (_ ∧ _ ∧ _ ∧ _))

/-- A token that is not longer than an id is not too long. -/
lemma not_isTooLong {s : Store} {token : String} (h : token.toList.length ≤ 36) :
    ¬ s.IsTooLong token := by
  rintro ⟨-, -, -, hlength⟩
  unfold longestStart at hlength
  omega

/-- The answer to a token that addresses the given tasks. -/
def answer (token : String) : Except StoreFault (List Task) → Except Fault Task
  | .error f => .error (.store f)
  | .ok [] => .error (.taskNotFound token)
  | .ok [t] => .ok t
  | .ok _ => .error (.ambiguousId token)

variable {s : Store} {token : String} {t : Task} {r : Row}

lemma mem_addressed : r ∈ s.addressed token ↔ r ∈ s.rows ∧ r.id.IsAddressedBy token := by
  unfold addressed
  rw [List.mem_filter, decide_eq_true_eq]

/-! ## The answer -/

/-- The answer does not depend on the order of the tasks. -/
lemma answer_perm {l l' : List Task} (h : l.Perm l') : answer token (.ok l) = answer token (.ok l') := by
  match l' with
  | [] => rw [h.eq_nil]
  | [t] => rw [List.perm_singleton.mp h]
  | t :: u :: rest =>
    have hlength := h.length_eq
    match l with
    | [] => exact absurd hlength nofun
    | [v] => exact absurd hlength (by simp)
    | v :: w :: more => rfl

lemma readAll_singleton (r : Row) :
    readAll [r] = match r.read? with
      | some t => .ok [t]
      | none => .error .unreadable := by
  unfold readAll
  rw [List.mapM_cons]
  cases r.read? <;> rfl

/-- With distinct ids, the row that is found by its id is the only one that has it. -/
lemma filter_id_eq (hids : (s.rows.map Row.id).Nodup) (id : TaskId) :
    s.rows.filter (·.id == id) = (s.rows.find? (·.id == id)).toList := by
  cases hfind : s.rows.find? (·.id == id) with
  | none =>
    apply List.filter_eq_nil_iff.mpr
    exact List.find?_eq_none.mp hfind
  | some r =>
    obtain ⟨hr, front, rest, hrows, hfront⟩ := List.find?_eq_some_iff_append.mp hfind
    rw [hrows, List.map_append, List.map_cons] at hids
    -- no other row has the id
    have hrest : ∀ r' ∈ rest, ¬ (r'.id == id) = true := by
      intro r' hr' hid
      have hsame : r'.id = r.id := (beq_iff_eq.mp hid).trans (beq_iff_eq.mp hr).symm
      have hnew := (List.nodup_cons.mp hids.of_append_right).1
      exact hnew (hsame ▸ List.mem_map_of_mem hr')
    have hfront' : ∀ r' ∈ front, ¬ (r'.id == id) = true := by
      intro r' hr'
      simpa using hfront r' hr'
    rw [hrows, List.filter_append, List.filter_eq_nil_iff.mpr hfront', List.filter_cons, if_pos hr,
      List.filter_eq_nil_iff.mpr hrest]
    rfl

/-- A full id gives the row that has it. -/
lemma find_full (hids : (s.rows.map Row.id).Nodup) {id : TaskId}
    (h : TaskId.ofText? (trim token) = some id) :
    s.find token = answer (trim token) (readAll (s.addressed (trim token))) := by
  have haddressed : s.addressed (trim token) = (s.rows.find? (·.id == id)).toList := by
    rw [← filter_id_eq hids]
    apply List.filter_congr
    intro r _
    rw [Bool.eq_iff_iff, decide_eq_true_eq, beq_iff_eq, TaskId.isAddressedBy_full h]
  rw [haddressed]
  unfold find get?
  dsimp only
  rw [h]
  dsimp only
  cases s.rows.find? (·.id == id) with
  | none => rfl
  | some r =>
    rw [Option.toList_some, readAll_singleton]
    dsimp only
    cases r.read? <;> rfl

lemma startChars_trim (token : String) :
    TaskId.startChars (trim token) = lowerAscii (trim token).toList := by
  unfold TaskId.startChars trim
  rw [String.toList_ofList, trimChars_trimChars]

/-- A token that is long enough is the start of a written form when it has only characters of one. -/
lemma isStart_iff (hlong : shortestStart ≤ (trim token).utf8ByteSize) :
    TaskId.isStart (trim token) = true ↔ ∀ c ∈ (trim token).toList, TaskId.isIdChar c = true := by
  have hnonempty : (trim token).toList ≠ [] := by
    intro hnil
    rw [String.toList_eq_nil_iff.mp hnil] at hlong
    exact absurd hlong (by decide)
  have hlower : (lowerAscii (trim token).toList).isEmpty = false :=
    List.isEmpty_eq_false_iff.mpr (mt List.map_eq_nil_iff.mp hnonempty)
  unfold TaskId.isStart
  rw [startChars_trim, hlower]
  simp [lowerAscii, TaskId.isIdChar_toLower]

/-- The ids that start with a token are those that it addresses. -/
lemma hasStart_iff (h : TaskId.ofText? (trim token) = none)
    (hlong : shortestStart ≤ (trim token).utf8ByteSize) (id : TaskId) :
    id.hasStart (trim token) = true ↔ id.IsAddressedBy (trim token) := by
  unfold TaskId.hasStart
  rw [Bool.and_eq_true, List.isPrefixOf_iff_prefix, startChars_trim, isStart_iff hlong]
  constructor
  · rintro ⟨-, hbegins⟩
    exact (TaskId.isAddressedBy_beginning h).mpr ⟨hlong, hbegins⟩
  · intro hid
    exact ⟨(TaskId.isIdChar_of_isAddressedBy h hid).1, ((TaskId.isAddressedBy_beginning h).mp hid).2⟩

/-- A beginning gives the rows whose written id it begins, unless it is too long. -/
lemma find_beginning (h : TaskId.ofText? (trim token) = none)
    (hlong : shortestStart ≤ (trim token).utf8ByteSize) :
    s.find token = if s.IsTooLong (trim token) then .error (.store .unreadable)
      else answer (trim token) (readAll (s.addressed (trim token))) := by
  have hfind : s.find token = answer (trim token) (s.withStart (trim token)) := by
    unfold find
    dsimp only
    rw [h]
    dsimp only
    rw [if_neg (Nat.not_lt.mpr hlong)]
    cases s.withStart (trim token) with
    | error f => rfl
    | ok tasks =>
      match tasks with
      | [] | [t] | t :: u :: rest => rfl
  have htooLong : (!s.rows.isEmpty && TaskId.isStart (trim token) &&
      longestStart < (TaskId.startChars (trim token)).length) = decide (s.IsTooLong (trim token)) := by
    rw [Bool.eq_iff_iff, decide_eq_true_eq, Bool.and_eq_true, Bool.and_eq_true, isStart_iff hlong,
      startChars_trim]
    unfold IsTooLong
    simp [lowerAscii, h, and_assoc]
  have haddressed : s.rows.filter (·.id.hasStart (trim token)) = s.addressed (trim token) := by
    apply List.filter_congr
    intro r _
    rw [Bool.eq_iff_iff, decide_eq_true_eq, hasStart_iff h hlong]
  rw [hfind]
  unfold withStart select
  rw [htooLong, haddressed]
  by_cases hcase : s.IsTooLong (trim token)
  · rw [if_pos (decide_eq_true hcase), if_pos hcase]
    rfl
  · rw [if_neg (by simpa using hcase), if_neg hcase]
    cases readAll (s.addressed (trim token)) with
    | error f => rfl
    | ok tasks => exact answer_perm (List.mergeSort_perm tasks entryLe)

/-- A beginning that is too short finds nothing, and it addresses nothing. -/
lemma find_short (h : TaskId.ofText? (trim token) = none)
    (hshort : (trim token).utf8ByteSize < shortestStart) :
    s.find token = .error (.taskNotFound (trim token)) ∧ s.addressed (trim token) = [] := by
  constructor
  · unfold find
    dsimp only
    rw [h]
    dsimp only
    rw [if_pos hshort]
  · apply List.filter_eq_nil_iff.mpr
    intro r _
    rw [decide_eq_true_eq, TaskId.isAddressedBy_beginning h]
    omega

/-- The answer to a token comes from the rows that it addresses, unless it is too long. -/
lemma find_eq (hids : (s.rows.map Row.id).Nodup) (token : String) :
    s.find token = if s.IsTooLong (trim token) then .error (.store .unreadable)
      else answer (trim token) (readAll (s.addressed (trim token))) := by
  cases h : TaskId.ofText? (trim token) with
  | some id =>
    have hfits : ¬ s.IsTooLong (trim token) := by
      rintro ⟨-, hnone, -⟩
      rw [h] at hnone
      exact absurd hnone nofun
    rw [if_neg hfits]
    exact find_full hids h
  | none =>
    by_cases hshort : (trim token).utf8ByteSize < shortestStart
    · have hfits : ¬ s.IsTooLong (trim token) := by
        rintro ⟨-, -, hchars, hlength⟩
        -- each of its characters is a single byte
        rw [← TaskId.utf8ByteSize_ofList hchars, String.ofList_toList] at hlength
        unfold longestStart at hlength
        unfold shortestStart at hshort
        omega
      obtain ⟨hfind, hnone⟩ := find_short (s := s) h hshort
      rw [if_neg hfits, hfind, hnone]
      rfl
    · exact find_beginning h (Nat.le_of_not_lt hshort)

/-! ## Exact answers -/

/-- An answer to a token is the exact one. -/
structure Resolves (s : Store) (token : String) (answer : Except Fault Task) : Prop where
  /-- It is a task when this is the task of the only row that the token addresses. -/
  one : ∀ t, answer = .ok t ↔
    ∃ r ∈ s.rows, r.read? = some t ∧ ∀ r' ∈ s.rows, r'.id.IsAddressedBy token ↔ r' = r
  /-- It says that the token is ambiguous when this addresses more than one id. -/
  several : answer = .error (.ambiguousId token) ↔
    ∃ r ∈ s.rows, ∃ r' ∈ s.rows, r.id ≠ r'.id ∧ r.id.IsAddressedBy token ∧ r'.id.IsAddressedBy token
  /-- It says that nothing is found when the token addresses no row. -/
  none : answer = .error (.taskNotFound token) ↔ ∀ r ∈ s.rows, ¬ r.id.IsAddressedBy token
  total : (∃ t, answer = .ok t) ∨ answer = .error (.ambiguousId token) ∨
    answer = .error (.taskNotFound token)

lemma not_isAddressedBy (h : s.addressed token = []) : ∀ r ∈ s.rows, ¬ r.id.IsAddressedBy token := by
  intro r hr hid
  have hmem := mem_addressed.mpr ⟨hr, hid⟩
  rw [h] at hmem
  exact List.not_mem_nil hmem

lemma isAddressedBy_iff (h : s.addressed token = [r]) :
    ∀ r' ∈ s.rows, r'.id.IsAddressedBy token ↔ r' = r := by
  intro r' hr'
  have hmem : r' ∈ s.addressed token ↔ _ := mem_addressed
  rw [h, List.mem_singleton] at hmem
  rw [hmem, and_iff_right hr']

/-- A token that addresses no row names no task. -/
lemma resolves_none (h : s.addressed token = []) :
    s.Resolves token (.error (.taskNotFound token)) where
  one t := by
    apply iff_of_false nofun
    rintro ⟨r, hr, -, honly⟩
    exact not_isAddressedBy h r hr ((honly r hr).mpr rfl)
  several := by
    apply iff_of_false nofun
    rintro ⟨r, hr, -, -, -, hid, -⟩
    exact not_isAddressedBy h r hr hid
  none := iff_of_true rfl (not_isAddressedBy h)
  total := .inr (.inr rfl)

/-- A token that addresses one row names the task in it. -/
lemma resolves_one (h : s.addressed token = [r]) (hread : r.read? = some t) :
    s.Resolves token (.ok t) where
  one u := by
    have hmem := mem_addressed.mp (h ▸ List.mem_singleton_self r)
    constructor
    · intro hu
      rw [← Except.ok.inj hu]
      exact ⟨r, hmem.1, hread, isAddressedBy_iff h⟩
    · rintro ⟨r', -, hread', honly⟩
      obtain rfl : r = r' := (honly r hmem.1).mp hmem.2
      rw [hread] at hread'
      exact congrArg Except.ok (Option.some.inj hread')
  several := by
    apply iff_of_false nofun
    rintro ⟨r', hr', r'', hr'', hdiffer, hid, hid'⟩
    rw [(isAddressedBy_iff h r' hr').mp hid, (isAddressedBy_iff h r'' hr'').mp hid'] at hdiffer
    exact hdiffer rfl
  none := by
    have hmem := mem_addressed.mp (h ▸ List.mem_singleton_self r)
    exact iff_of_false nofun fun hnone => hnone r hmem.1 hmem.2
  total := .inl ⟨t, rfl⟩

/-- A token that addresses several rows is ambiguous. -/
lemma resolves_several (hids : (s.rows.map Row.id).Nodup) {r' : Row} {rest : List Row}
    (h : s.addressed token = r :: r' :: rest) : s.Resolves token (.error (.ambiguousId token)) := by
  have hnodup : ((s.addressed token).map Row.id).Nodup :=
    hids.sublist (List.filter_sublist.map Row.id)
  have hmem := mem_addressed.mp (h ▸ List.mem_cons_self : r ∈ s.addressed token)
  have hmem' :=
    mem_addressed.mp (h ▸ List.mem_cons_of_mem r List.mem_cons_self : r' ∈ s.addressed token)
  have hdiffer : r.id ≠ r'.id := by
    rw [h] at hnodup
    intro hsame
    exact (List.nodup_cons.mp hnodup).1 (hsame ▸ List.mem_cons_self)
  constructor
  case one =>
    intro t
    apply iff_of_false nofun
    rintro ⟨r'', -, -, honly⟩
    rw [(honly r hmem.1).mp hmem.2, (honly r' hmem'.1).mp hmem'.2] at hdiffer
    exact hdiffer rfl
  case several => exact iff_of_true rfl ⟨r, hmem.1, r', hmem'.1, hdiffer, hmem.2, hmem'.2⟩
  case none => exact iff_of_false nofun fun hnone => hnone r hmem.1 hmem.2
  case total => exact .inr (.inl rfl)

lemma isSome_of_mapM_read? {rows : List Row} {tasks : List Task} (h : rows.mapM Row.read? = some tasks) :
    ∀ r ∈ rows, r.read?.isSome = true := by
  induction rows generalizing tasks with
  | nil => exact fun r hr => absurd hr List.not_mem_nil
  | cons r rows ih =>
    rw [List.mapM_cons] at h
    obtain ⟨t, ht, h⟩ := Option.bind_eq_some_iff.mp h
    obtain ⟨rest, hrest, -⟩ := Option.bind_eq_some_iff.mp h
    refine List.forall_mem_cons.mpr ⟨?_, ih hrest⟩
    rw [ht]
    rfl

/-- Only a row that does not read and a token that is too long keep the store from an answer. -/
lemma readable_of_find (hids : (s.rows.map Row.id).Nodup)
    (h : ∀ f, s.find token ≠ .error (.store f)) :
    (∀ r ∈ s.addressed (trim token), r.read?.isSome = true) ∧ ¬ s.IsTooLong (trim token) := by
  have hfits : ¬ s.IsTooLong (trim token) := by
    intro hlong
    refine h .unreadable ?_
    rw [find_eq hids, if_pos hlong]
  rw [find_eq hids, if_neg hfits] at h
  refine ⟨?_, hfits⟩
  unfold readAll at h
  cases hread : (s.addressed (trim token)).mapM Row.read? with
  | none =>
    rw [hread] at h
    exact absurd rfl (h .unreadable)
  | some tasks => exact isSome_of_mapM_read? hread

/-- A failing store is no answer. -/
lemma not_resolves_error (f : StoreFault) : ¬ s.Resolves token (.error (.store f)) := by
  intro h
  rcases h.total with ⟨t, ht⟩ | hseveral | hnone
  · exact absurd ht nofun
  · exact absurd hseveral nofun
  · exact absurd hnone nofun

/-- The answer is the exact one when all rows that are addressed read, and the token is not too long. -/
lemma resolves_find (hids : (s.rows.map Row.id).Nodup)
    (hread : ∀ r ∈ s.addressed (trim token), r.read?.isSome = true)
    (hfits : ¬ s.IsTooLong (trim token)) : s.Resolves (trim token) (s.find token) := by
  rw [find_eq hids, if_neg hfits]
  unfold readAll
  rw [mapM_read? hread]
  match hrows : s.addressed (trim token) with
  | [] => exact resolves_none hrows
  | [r] =>
    rw [hrows] at hread
    obtain ⟨t, ht⟩ := Option.isSome_iff_exists.mp (hread r List.mem_cons_self)
    rw [List.filterMap_cons_some ht]
    exact resolves_one hrows ht
  | r :: r' :: rest =>
    rw [hrows] at hread
    obtain ⟨t, ht⟩ := Option.isSome_iff_exists.mp (hread r List.mem_cons_self)
    obtain ⟨t', ht'⟩ :=
      Option.isSome_iff_exists.mp (hread r' (List.mem_cons_of_mem r List.mem_cons_self))
    rw [List.filterMap_cons_some ht, List.filterMap_cons_some ht']
    exact resolves_several hids hrows

/-- A task that is found is that of the only row that the token addresses. -/
lemma exists_of_find (hids : (s.rows.map Row.id).Nodup) (h : s.find token = .ok t) :
    ∃ r ∈ s.rows, r.read? = some t ∧ ∀ r' ∈ s.rows, r'.id.IsAddressedBy (trim token) ↔ r' = r := by
  have hanswer : ∀ f, s.find token ≠ .error (.store f) := by
    intro f
    rw [h]
    exact nofun
  obtain ⟨hread, hfits⟩ := readable_of_find hids hanswer
  exact ((resolves_find hids hread hfits).one t).mp h

/-- A token that is no full id and has a character that ids do not have finds nothing, however long it
is. -/
lemma find_foreign (hids : (s.rows.map Row.id).Nodup) (hnone : TaskId.ofText? (trim token) = none)
    (hforeign : ∃ c ∈ (trim token).toList, TaskId.isIdChar c = false) :
    s.find token = .error (.taskNotFound (trim token)) := by
  obtain ⟨c, hc, hchar⟩ := hforeign
  have hempty : s.addressed (trim token) = [] := by
    apply List.filter_eq_nil_iff.mpr
    intro r _ haddressed
    have hchars := (TaskId.isIdChar_of_isAddressedBy hnone (of_decide_eq_true haddressed)).1 c hc
    rw [hchar] at hchars
    exact absurd hchars nofun
  have hfits : ¬ s.IsTooLong (trim token) := by
    rintro ⟨-, -, hchars, -⟩
    rw [hchars c hc] at hchar
    exact absurd hchar nofun
  rw [find_eq hids, if_neg hfits, hempty]
  rfl

/-- What is enough of a written id to find its task stays enough when more of it is given. -/
lemma find_start_of_le (hids : (s.rows.map Row.id).Nodup) {n m : Nat} (hle : n ≤ m)
    (h : s.find (t.id.start n) = .ok t) : s.find (t.id.start m) = .ok t := by
  obtain ⟨r, hr, hread, honly⟩ := exists_of_find hids h
  rw [TaskId.trim_start] at honly
  have hid : r.id = t.id := congrArg Task.id (task_of_read? hread)
  have hn : shortestStart ≤ n := ((TaskId.isAddressedBy_start n).mp ((honly r hr).mpr rfl)).1
  have honly' : ∀ r' ∈ s.rows, r'.id.IsAddressedBy (t.id.start m) ↔ r' = r := by
    intro r' hr'
    constructor
    · intro haddressed
      exact (honly r' hr').mp (TaskId.isAddressedBy_start_of_le hn hle haddressed)
    · rintro rfl
      rw [hid]
      exact TaskId.isAddressedBy_start_self (Nat.le_trans hn hle)
  have hreadable : ∀ r' ∈ s.addressed (trim (t.id.start m)), r'.read?.isSome = true := by
    intro r' hr'
    rw [TaskId.trim_start, mem_addressed] at hr'
    rw [(honly' r' hr'.1).mp hr'.2, hread]
    rfl
  have hfits : ¬ s.IsTooLong (trim (t.id.start m)) := by
    rw [TaskId.trim_start, TaskId.start]
    apply not_isTooLong
    rw [String.toList_ofList, List.length_take, TaskId.length_chars]
    omega
  refine ((resolves_find hids hreadable hfits).one t).mpr ⟨r, hr, hread, ?_⟩
  rw [TaskId.trim_start]
  exact honly'

/-- Tokens are resolved exactly. The answer to any token, its blanks trimmed, is the task of the only row
that the token addresses, says that there is more than one, or says that there is none, unless a row that
is addressed does not read or the token is too long. A token with any character that ids do not have finds
nothing if it is no full id. When a beginning of its written id is enough to find a task, so is every longer
one, up to the full id, and the short form of a stored task finds no other one. -/
theorem find_exact (s : Store) (hids : (s.rows.map Row.id).Nodup) (token : String) :
    (s.Resolves (trim token) (s.find token) ↔
      (∀ r ∈ s.addressed (trim token), r.read?.isSome = true) ∧ ¬ s.IsTooLong (trim token)) ∧
    (TaskId.ofText? (trim token) = none → (∃ c ∈ (trim token).toList, TaskId.isIdChar c = false) →
      s.find token = .error (.taskNotFound (trim token))) ∧
    (∀ (t : Task) (n m : Nat), n ≤ m → s.find (t.id.start n) = .ok t →
      s.find (t.id.start m) = .ok t) ∧
    ∀ r ∈ s.rows, ∀ t, s.find r.id.shortText = .ok t → r.read? = some t := by
  refine ⟨⟨fun h => ?_, fun h => resolves_find hids h.1 h.2⟩, find_foreign hids,
    fun t n m hle h => find_start_of_le hids hle h, fun r hr t h => ?_⟩
  · apply readable_of_find hids
    intro f hf
    rw [hf] at h
    exact not_resolves_error f h
  · rw [TaskId.shortText_eq] at h
    obtain ⟨r', hr', hread, honly⟩ := exists_of_find hids h
    rw [TaskId.trim_start] at honly
    rw [(honly r hr).mp (TaskId.isAddressedBy_start_self (by decide))]
    exact hread

/-- An errand whose id is 32 times the digit a. -/
def groceries : Task :=
  Task.fresh ⟨List.replicate 32 ⟨10, by decide⟩, rfl⟩ "groceries" .epoch

/-- An errand whose id is five times the digit a, and then the digit b. -/
def dentist : Task :=
  Task.fresh ⟨List.replicate 5 ⟨10, by decide⟩ ++ List.replicate 27 ⟨11, by decide⟩, rfl⟩ "dentist" .epoch

/-- A store with both errands. -/
def errands : Store where
  rows := [Row.ofTask groceries, Row.ofTask dentist]

/-- Five digits are not enough for an errand, and six are, so that ten are enough, too. A wildcard finds
nothing. -/
theorem find_exact_errands :
    (errands.rows.map Row.id).Nodup ∧
      errands.find "AAAAA" = .error (.ambiguousId "AAAAA") ∧
      errands.find "aaaa%" = .error (.taskNotFound "aaaa%") ∧
      errands.find (dentist.id.start 6) = .ok dentist ∧
      errands.find (dentist.id.start 10) = .ok dentist := by
  have hids : (errands.rows.map Row.id).Nodup := by decide
  have hsix : errands.find (dentist.id.start 6) = .ok dentist := by
    obtain ⟨hresolves, -⟩ := find_exact errands hids (dentist.id.start 6)
    rw [TaskId.trim_start] at hresolves
    refine ((hresolves.mpr ⟨by decide, not_isTooLong (by decide)⟩).one dentist).mpr ?_
    exact ⟨Row.ofTask dentist, by decide, by decide, by decide⟩
  refine ⟨hids, ?_, ?_, hsix, ?_⟩
  · obtain ⟨hresolves, -⟩ := find_exact errands hids "AAAAA"
    have htoken : trim "AAAAA" = "AAAAA" := by decide
    rw [htoken] at hresolves
    exact (hresolves.mpr ⟨by decide, not_isTooLong (by decide)⟩).several.mpr (by decide)
  · obtain ⟨-, hother, -⟩ := find_exact errands hids "aaaa%"
    have htoken : trim "aaaa%" = "aaaa%" := by decide
    rw [htoken] at hother
    exact hother (by decide) ⟨'%', by decide, by decide⟩
  · obtain ⟨-, -, hlonger, -⟩ := find_exact errands hids ""
    exact hlonger dentist 6 10 (by decide) hsix

/-- An errand that is due in the leap second at the end of the range. -/
def overdue : Task :=
  { groceries with due := some ⟨lastSecond, 1000000000, by decide⟩ }

lemma isTooLong_replicate (h : s.rows ≠ []) {n : Nat} (hn : longestStart < n) :
    s.IsTooLong (String.ofList (List.replicate n 'a')) := by
  have hlength : (List.replicate n 'a').length = n := List.length_replicate
  unfold longestStart at hn
  refine ⟨h, ?_, ?_, ?_⟩
  · unfold TaskId.ofText?
    rw [String.toList_ofList]
    unfold TaskId.ofChars?
    rw [hlength]
    split
    all_goals first | omega | rfl
  · intro c hc
    rw [String.toList_ofList] at hc
    rw [List.eq_of_mem_replicate hc]
    decide
  · rw [String.toList_ofList, hlength]
    exact hn

/-- A token of fifty thousand digits addresses no errand, and still the store fails instead of finding
nothing. It also fails for the full id of a task whose due date does not read. -/
theorem find_inexact_errands :
    let token := String.ofList (List.replicate 50000 'a')
    let late : Store := { rows := [Row.ofTask overdue] }
    (errands.rows.map Row.id).Nodup ∧ (late.rows.map Row.id).Nodup ∧
      (∀ r ∈ errands.rows, ¬ r.id.IsAddressedBy (trim token)) ∧
      errands.find token = .error (.store .unreadable) ∧
      ¬ errands.Resolves (trim token) (errands.find token) ∧
      (∀ r ∈ late.rows, r.id.IsAddressedBy (trim overdue.id.text)) ∧
      late.find overdue.id.text = .error (.store .unreadable) ∧
      ¬ late.Resolves (trim overdue.id.text) (late.find overdue.id.text) := by
  intro token late
  have hids : (errands.rows.map Row.id).Nodup := by decide
  have hlong : errands.IsTooLong token := isTooLong_replicate (by decide) (by unfold longestStart; omega)
  have htrim : trim token = token :=
    trim_eq_self fun c hc => TaskId.isBlank_of_isIdChar (hlong.2.2.1 c hc)
  have hnone : ∀ r ∈ errands.rows, ¬ r.id.IsAddressedBy (trim token) := by
    rw [htrim]
    intro r _ hid
    have hlength := (TaskId.isIdChar_of_isAddressedBy hlong.2.1 hid).2
    exact not_isTooLong hlength hlong
  have hfails : errands.find token = .error (.store .unreadable) := by
    rw [find_eq hids, htrim, if_pos hlong]
  have hlate : late.find overdue.id.text = .error (.store .unreadable) := by rfl
  refine ⟨hids, by decide, hnone, hfails, ?_, by decide, hlate, ?_⟩
  · rw [hfails]
    exact not_resolves_error _
  · rw [hlate]
    exact not_resolves_error _

end Store

end TaskSeries
