import Mathlib.Data.List.Basic
import TaskSeries.Period.Parser
import TaskSeries.Proofs.Text.Characters

/-!
# The grammar of durations

A duration in lower case, behind its leading `p`, is a sequence of components in the order of their
units, each of them there or not; those of the time stand behind a `t` (`Period.Duration`). The reader
gives the seconds of exactly the durations that are not too long (`Period.isoSeconds?_eq_some_iff`).
The limit of 64 bits on its way does not show: the units are at least a second long, so that a count, a
product or a sum beyond it leaves a total that is too long in any case.
-/

namespace TaskSeries.Period

open TaskSeries.Text

/-! ## Components -/

/-- A run of digits, at least one. -/
def IsDigits (cs : List Char) : Prop :=
  cs ≠ [] ∧ ∀ c ∈ cs, c.isDigit = true

/-- A text of components in the order of the given units, each of which is there or not, with the
digits and the seconds of those that are there. -/
inductive Components : List (Char × Nat) → List Char → List (List Char × Nat) → Prop
  | none : Components [] [] []
  | absent {unit units cs counts} :
    Components units cs counts → Components (unit :: units) cs counts
  | present {designator seconds units digits cs counts} :
    IsDigits digits → Components units cs counts →
    Components ((designator, seconds) :: units) (digits ++ designator :: cs)
      ((digits, seconds) :: counts)

/-- The seconds that counts make with their units. -/
def weight : List (List Char × Nat) → Nat
  | [] => 0
  | (digits, seconds) :: counts => natOfDigits digits * seconds + weight counts

/-- A duration in lower case, behind its leading `p`, and its seconds. It has at least one component,
and one of the time if it has a `t`. -/
inductive Duration : List Char → Nat → Prop
  | date {cs counts} :
    Components dateComponents cs counts → counts ≠ [] → Duration cs (weight counts)
  | time {cs ts counts times} :
    Components dateComponents cs counts → Components timeComponents ts times → times ≠ [] →
    Duration (cs ++ 't' :: ts) (weight counts + weight times)

section
variable {units : List (Char × Nat)} {cs ds rest : List Char} {counts : List (List Char × Nat)}
  {c d : Char}

lemma takeWhile_digits (hds : ∀ c ∈ ds, c.isDigit = true) (hd : d.isDigit = false) :
    (ds ++ d :: cs).takeWhile Char.isDigit = ds := by
  rw [List.takeWhile_append_of_pos hds, List.takeWhile_cons_of_neg (by simp [hd]), List.append_nil]

lemma dropWhile_digits (hds : ∀ c ∈ ds, c.isDigit = true) (hd : d.isDigit = false) :
    (ds ++ d :: cs).dropWhile Char.isDigit = d :: cs := by
  rw [List.dropWhile_append_of_pos hds, List.dropWhile_cons_of_neg (by simp [hd])]

namespace Components

lemma eq_nil_iff (h : Components units cs counts) : cs = [] ↔ counts = [] := by
  induction h with
  | none => simp
  | absent _ ih => exact ih
  | present _ _ _ => simp

/-- The seconds of the components are those of units. -/
lemma seconds_mem (h : Components units cs counts) :
    ∀ count ∈ counts, count.2 ∈ units.map Prod.snd := by
  induction h with
  | none => exact fun _ hmem => absurd hmem List.not_mem_nil
  | absent _ ih => exact fun count hmem => List.mem_cons_of_mem _ (ih count hmem)
  | present _ _ ih =>
    rw [List.forall_mem_cons]
    exact ⟨List.mem_cons_self, fun count hmem => List.mem_cons_of_mem _ (ih count hmem)⟩

/-- Components end in a designator. -/
lemma getLast?_mem (h : Components units cs counts) (hc : cs.getLast? = some c) :
    c ∈ units.map Prod.fst := by
  induction h with
  | none => exact absurd hc nofun
  | absent _ ih => exact List.mem_cons_of_mem _ (ih hc)
  | @present designator _ _ digits cs _ _ _ ih =>
    rw [List.getLast?_append, List.getLast?_cons] at hc
    cases hlast : cs.getLast? with
    | none =>
      rw [hlast] at hc
      rw [← Option.some.inj hc]
      exact List.mem_cons_self
    | some last =>
      rw [hlast] at hc ih
      exact List.mem_cons_of_mem _ (ih hc)

/-- The first character behind the digits in front is a designator, or stands behind the
components. -/
lemma head?_dropWhile_mem (h : Components units cs counts)
    (hunits : ∀ unit ∈ units, unit.1.isDigit = false) (hrest : ∀ c ∈ rest.head?, c.isDigit = false)
    (hd : d ∈ ((cs ++ rest).dropWhile Char.isDigit).head?) :
    d ∈ units.map Prod.fst ∨ d ∈ rest.head? := by
  induction h with
  | none =>
    refine .inr ?_
    cases rest with
    | nil => exact hd
    | cons c rest =>
      have hc : c.isDigit = false := hrest c rfl
      rw [List.nil_append, List.dropWhile_cons_of_neg (by simp [hc])] at hd
      exact hd
  | absent _ ih =>
    rcases ih (fun unit hunit => hunits unit (List.mem_cons_of_mem _ hunit)) hd with hmem | hmem
    · exact .inl (List.mem_cons_of_mem _ hmem)
    · exact .inr hmem
  | present hdigits _ _ =>
    rw [List.append_assoc, List.cons_append,
      dropWhile_digits hdigits.2 (hunits _ List.mem_cons_self)] at hd
    rw [← Option.some.inj hd]
    exact .inl List.mem_cons_self

end Components

/-- None of the units has to be there. -/
lemma components_nil (units : List (Char × Nat)) : Components units [] [] := by
  induction units with
  | nil => exact .none
  | cons _ _ ih => exact .absent ih

/-- Each of the units may be there alone. -/
lemma components_single {seconds : Nat} (hunit : (d, seconds) ∈ units) (hds : IsDigits ds) :
    Components units (ds ++ [d]) [(ds, seconds)] := by
  induction units with
  | nil => exact absurd hunit List.not_mem_nil
  | cons unit units ih =>
    rcases List.mem_cons.mp hunit with rfl | hunit
    · exact .present hds (components_nil units)
    · exact .absent (ih hunit)

/-! ## Taking components -/

/-- A component with another designator is left where it is. -/
lemma takeComponents_skip {seconds : Nat} (h : (cs.dropWhile Char.isDigit).head? ≠ some d) :
    takeComponents ((d, seconds) :: units) cs = takeComponents units cs := by
  rw [takeComponents]
  split
  · next c rest hc =>
    have hne : (c == d) = false := by
      rw [beq_eq_false_iff_ne]
      rintro rfl
      simp [hc] at h
    simp [hne]
  · rfl

/-- A component that is there is taken. -/
lemma takeComponents_digits {seconds : Nat} (hds : IsDigits ds) (hd : d.isDigit = false) :
    takeComponents ((d, seconds) :: units) (ds ++ d :: cs) =
      ((ds, seconds) :: (takeComponents units cs).1, (takeComponents units cs).2) := by
  rw [takeComponents, dropWhile_digits hds.2 hd, takeWhile_digits hds.2 hd]
  simp [hds.1]

/-- What the reader takes are components. -/
lemma components_takeComponents (units : List (Char × Nat)) (cs : List Char) :
    ∃ read, cs = read ++ (takeComponents units cs).2 ∧
      Components units read (takeComponents units cs).1 := by
  induction units generalizing cs with
  | nil => exact ⟨[], rfl, .none⟩
  | cons unit units ih =>
    obtain ⟨designator, seconds⟩ := unit
    have habsent : ∃ read, cs = read ++ (takeComponents units cs).2 ∧
        Components ((designator, seconds) :: units) read (takeComponents units cs).1 := by
      obtain ⟨read, hcs, hread⟩ := ih cs
      exact ⟨read, hcs, .absent hread⟩
    rw [takeComponents]
    split
    · next c rest hrest =>
      split
      · next htaken =>
        -- the digits in front and the designator are taken, and the rest goes on behind them
        obtain ⟨read, hread, hcomponents⟩ := ih rest
        have hcs : cs = cs.takeWhile Char.isDigit ++ c :: rest := by
          rw [← hrest, List.takeWhile_append_dropWhile]
        simp only [Bool.and_eq_true, Bool.not_eq_true', List.isEmpty_eq_false_iff,
          beq_iff_eq] at htaken
        obtain ⟨hne, rfl⟩ := htaken
        refine ⟨cs.takeWhile Char.isDigit ++ c :: read, ?_,
          .present ⟨hne, fun _ => List.mem_takeWhile_imp⟩ hcomponents⟩
        rw [List.append_assoc, List.cons_append, ← hread, ← hcs]
      · exact habsent
    · exact habsent

/-- The text does not begin like one more component. -/
def EndsComponents (units : List (Char × Nat)) (rest : List Char) : Prop :=
  ∀ c ∈ rest.head?, c.isDigit = false ∧ c ∉ units.map Prod.fst

lemma EndsComponents.of_cons {unit : Char × Nat} (h : EndsComponents (unit :: units) rest) :
    EndsComponents units rest := fun c hc =>
  ⟨(h c hc).1, fun hmem => (h c hc).2 (List.mem_cons_of_mem _ hmem)⟩

/-- Components are taken as they stand, up to what is none. -/
lemma Components.takeComponents_append (h : Components units cs counts)
    (hunits : ∀ unit ∈ units, unit.1.isDigit = false) (hnodup : (units.map Prod.fst).Nodup)
    (hrest : EndsComponents units rest) :
    takeComponents units (cs ++ rest) = (counts, rest) := by
  induction h with
  | none => rfl
  | @absent unit units cs counts h ih =>
    obtain ⟨hunit, hnodup⟩ := List.nodup_cons.mp hnodup
    rw [List.forall_mem_cons] at hunits
    have hskip : ((cs ++ rest).dropWhile Char.isDigit).head? ≠ some unit.1 := by
      intro hfirst
      rcases h.head?_dropWhile_mem hunits.2 (fun c hc => (hrest c hc).1) hfirst with hmem | hmem
      · exact hunit hmem
      · exact (hrest _ hmem).2 List.mem_cons_self
    rw [takeComponents_skip hskip]
    exact ih hunits.2 hnodup hrest.of_cons
  | @present designator seconds units digits cs counts hdigits h ih =>
    rw [List.forall_mem_cons] at hunits
    rw [List.append_assoc, List.cons_append, takeComponents_digits hdigits hunits.1,
      ih hunits.2 (List.nodup_cons.mp hnodup).2 hrest.of_cons]

end

/-! ## Sums that fit into 64 bits -/

lemma held?_eq_some_iff {n m : Nat} : held? n = some m ↔ n < twoTo 63 ∧ n = m := by
  have hfits : FitsInt 64 n ↔ n < twoTo 63 := by
    show -(twoTo 63 : Int) ≤ n ∧ (n : Int) < twoTo 63 ↔ _
    omega
  unfold held?
  rw [Option.ite_none_right_eq_some, hfits, Option.some.injEq]

section
variable {component : List Char × Nat} {counts : List (List Char × Nat)} {total n : Nat}

/-- As its unit has a length, a count and its product fit if the sum does. -/
lemma addComponent?_eq_some_iff (hunit : 1 ≤ component.2) :
    addComponent? total component = some n ↔
      total + natOfDigits component.1 * component.2 < twoTo 63 ∧
        total + natOfDigits component.1 * component.2 = n := by
  have hle : natOfDigits component.1 ≤ natOfDigits component.1 * component.2 :=
    Nat.le_mul_of_pos_right _ hunit
  unfold addComponent?
  constructor
  · intro h
    obtain ⟨count, hcount, h⟩ := Option.bind_eq_some_iff.mp h
    obtain ⟨product, hproduct, h⟩ := Option.bind_eq_some_iff.mp h
    obtain ⟨-, rfl⟩ := held?_eq_some_iff.mp hcount
    obtain ⟨-, rfl⟩ := held?_eq_some_iff.mp hproduct
    exact held?_eq_some_iff.mp h
  · rintro ⟨hsum, rfl⟩
    refine Option.bind_eq_some_iff.mpr ⟨_, held?_eq_some_iff.mpr ⟨?_, rfl⟩, ?_⟩
    · omega
    refine Option.bind_eq_some_iff.mpr ⟨_, held?_eq_some_iff.mpr ⟨?_, rfl⟩, ?_⟩
    · omega
    exact held?_eq_some_iff.mpr ⟨hsum, rfl⟩

lemma weight_nil : weight [] = 0 := rfl

lemma weight_cons :
    weight (component :: counts) = natOfDigits component.1 * component.2 + weight counts := rfl

/-- The weights of two lists of components add up. -/
lemma weight_append (counts times : List (List Char × Nat)) :
    weight (counts ++ times) = weight counts + weight times := by
  induction counts with
  | nil => exact (Nat.zero_add _).symm
  | cons count counts ih => rw [List.cons_append, weight_cons, weight_cons, ih, Nat.add_assoc]

/-- The limit of 64 bits on the way to a sum is one on the sum. -/
lemma foldlM_addComponent?_eq_some_iff (hunits : ∀ count ∈ counts, 1 ≤ count.2)
    (htotal : total < twoTo 63) :
    counts.foldlM addComponent? total = some n ↔
      total + weight counts < twoTo 63 ∧ total + weight counts = n := by
  induction counts generalizing total with
  | nil =>
    show some total = some n ↔ total + 0 < _ ∧ total + 0 = n
    rw [Option.some.injEq, Nat.add_zero, and_iff_right htotal]
  | cons count counts ih =>
    rw [List.forall_mem_cons] at hunits
    rw [List.foldlM_cons, weight_cons, ← Nat.add_assoc]
    constructor
    · intro h
      obtain ⟨sum, hsum, h⟩ := Option.bind_eq_some_iff.mp h
      obtain ⟨hfits, rfl⟩ := (addComponent?_eq_some_iff hunits.1).mp hsum
      exact (ih hunits.2 hfits).mp h
    · rintro ⟨hfits, rfl⟩
      have hsum : total + natOfDigits count.1 * count.2 < twoTo 63 := by omega
      exact Option.bind_eq_some_iff.mpr
        ⟨_, (addComponent?_eq_some_iff hunits.1).mpr ⟨hsum, rfl⟩, (ih hunits.2 hsum).mpr ⟨hfits, rfl⟩⟩

end

/-! ## Reading a duration -/

section
variable {cs ts : List Char} {counts times : List (List Char × Nat)} {n m : Nat}

/-- The components of a date are taken off in front of a time. -/
lemma Components.takeComponents_date (h : Components dateComponents cs counts) (rest : List Char)
    (hrest : ∀ c ∈ rest.head?, c = 't') :
    takeComponents dateComponents (cs ++ rest) = (counts, rest) := by
  refine h.takeComponents_append (by decide) (by decide) fun c hc => ?_
  rw [hrest c hc]
  decide

/-- The components of a time are taken off up to the end. -/
lemma Components.takeComponents_time (h : Components timeComponents ts times) :
    takeComponents timeComponents ts = (times, []) := by
  have hend : EndsComponents timeComponents [] := nofun
  have htaken := h.takeComponents_append (by decide) (by decide) hend
  rwa [List.append_nil] at htaken

/-- The components of a text, in the grammar. -/
lemma isoComponents?_eq_some_iff {all : List (List Char × Nat)} :
    isoComponents? cs = some all ↔
      Components dateComponents cs all ∨
        ∃ front counts ts times, Components dateComponents front counts ∧
          Components timeComponents ts times ∧ cs = front ++ 't' :: ts ∧ all = counts ++ times := by
  constructor
  · intro h
    obtain ⟨front, hcs, hfront⟩ := components_takeComponents dateComponents cs
    unfold isoComponents? at h
    split at h
    · next date hdate =>
      rw [hdate] at hcs hfront
      rw [← Option.some.inj h, hcs, List.append_nil]
      exact .inl hfront
    · next date rest hdate =>
      rw [hdate] at hcs hfront
      obtain ⟨ts, hrest, hts⟩ := components_takeComponents timeComponents rest
      split at h
      · next time htime =>
        rw [htime, List.append_nil] at hrest
        rw [htime] at hts
        rw [← Option.some.inj h]
        exact .inr ⟨front, date, ts, time, hfront, hts, hrest ▸ hcs, rfl⟩
      · exact absurd h nofun
    · exact absurd h nofun
  · rintro (hdate | ⟨front, counts, ts, times, hfront, hts, rfl, rfl⟩)
    · have htaken := hdate.takeComponents_date [] nofun
      rw [List.append_nil] at htaken
      rw [isoComponents?, htaken]
    · have htaken := hfront.takeComponents_date ('t' :: ts) (by simp)
      rw [isoComponents?, htaken]
      simp only [hts.takeComponents_time]

/-- A text of components is a duration when it does not lack all of them, and not those of the time
behind a `t`. -/
lemma duration_iff :
    Duration cs n ↔ (cs.isEmpty || cs.getLast? == some 't') = false ∧
      ∃ all, isoComponents? cs = some all ∧ weight all = n := by
  rw [Bool.or_eq_false_iff, beq_eq_false_iff_ne, List.isEmpty_eq_false_iff]
  constructor
  · rintro (⟨hdate, hne⟩ | @⟨front, ts, counts, times, hdate, htime, hne⟩)
    · refine ⟨⟨mt hdate.eq_nil_iff.mp hne, fun hlast => ?_⟩, _,
        isoComponents?_eq_some_iff.mpr (.inl hdate), rfl⟩
      exact absurd (hdate.getLast?_mem hlast) (by decide)
    · have hlast : (front ++ 't' :: ts).getLast? = ts.getLast? := by
        obtain ⟨c, hc⟩ := Option.ne_none_iff_exists'.mp
          (mt List.getLast?_eq_none_iff.mp (mt htime.eq_nil_iff.mp hne))
        simp [List.getLast?_cons, hc]
      refine ⟨⟨by simp, fun ht => ?_⟩, _,
        isoComponents?_eq_some_iff.mpr (.inr ⟨_, _, _, _, hdate, htime, rfl, rfl⟩), weight_append _ _⟩
      rw [hlast] at ht
      exact absurd (htime.getLast?_mem ht) (by decide)
  · rintro ⟨⟨hne, hlast⟩, all, hall, rfl⟩
    rcases isoComponents?_eq_some_iff.mp hall with hdate | ⟨front, counts, ts, times, hdate, htime, rfl, rfl⟩
    · exact .date hdate (mt hdate.eq_nil_iff.mpr hne)
    · rw [weight_append]
      refine .time hdate htime fun hnil => hlast ?_
      rw [htime.eq_nil_iff.mpr hnil, List.getLast?_append]
      rfl

/-- A text is a duration of one length at most. -/
lemma Duration.unique (h : Duration cs n) (h' : Duration cs m) : n = m := by
  obtain ⟨-, all, hall, rfl⟩ := duration_iff.mp h
  obtain ⟨-, all', hall', rfl⟩ := duration_iff.mp h'
  rw [Option.some.inj (hall.symm.trans hall')]

/-- The units of a duration are a second long at least. -/
lemma one_le_of_isoComponents? {all : List (List Char × Nat)} (h : isoComponents? cs = some all) :
    ∀ count ∈ all, 1 ≤ count.2 := by
  have hdates : ∀ seconds ∈ dateComponents.map Prod.snd, 1 ≤ seconds := by decide
  have htimes : ∀ seconds ∈ timeComponents.map Prod.snd, 1 ≤ seconds := by decide
  rcases isoComponents?_eq_some_iff.mp h with hdate | ⟨_, _, _, _, hdate, htime, -, rfl⟩
  · exact fun count hmem => hdates _ (hdate.seconds_mem count hmem)
  · rw [List.forall_mem_append]
    exact ⟨fun count hmem => hdates _ (hdate.seconds_mem count hmem),
      fun count hmem => htimes _ (htime.seconds_mem count hmem)⟩

/-- The reader gives the seconds of the durations up to the longest one, and nothing for any other
text. -/
lemma isoSeconds?_eq_some_iff : isoSeconds? cs = some n ↔ Duration cs n ∧ n ≤ longest := by
  have hlongest : longest < twoTo 63 := by decide
  have hsum : ∀ all, isoComponents? cs = some all →
      (all.foldlM addComponent? 0 = some n ↔ weight all < twoTo 63 ∧ weight all = n) := by
    intro all hall
    have hfold := @foldlM_addComponent?_eq_some_iff all 0 n (one_le_of_isoComponents? hall) (by decide)
    rwa [Nat.zero_add] at hfold
  rw [duration_iff]
  unfold isoSeconds?
  constructor
  · intro h
    rw [Option.ite_none_left_eq_some, Bool.not_eq_true] at h
    obtain ⟨hguard, h⟩ := h
    obtain ⟨all, hall, h⟩ := Option.bind_eq_some_iff.mp h
    obtain ⟨total, htotal, h⟩ := Option.bind_eq_some_iff.mp h
    rw [Option.ite_none_right_eq_some] at h
    obtain ⟨hle, h⟩ := h
    obtain rfl := Option.some.inj h
    exact ⟨⟨hguard, all, hall, ((hsum all hall).mp htotal).2⟩, hle⟩
  · rintro ⟨⟨hguard, all, hall, hweight⟩, hle⟩
    have htotal := (hsum all hall).mpr ⟨by omega, hweight⟩
    rw [hguard, hall]
    show (all.foldlM addComponent? 0 >>= fun total => if total ≤ longest then some total else none) = _
    rw [htotal]
    exact if_pos hle

end

end TaskSeries.Period
