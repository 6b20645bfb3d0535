import Mathlib.Tactic.Lemma
import Mathlib.Tactic.SplitIfs
import TaskSeries.Listing.Sort

/-!
# The order of listings

A column of a listing has entries that are compared in their own way, in one direction or the other, and
tasks without an entry come last either way. With the due date and the place in the series behind it this
makes a total preorder of the tasks. A listing ascends in it, and tasks that it does not tell apart stay as
they were (`Listing.listed_sort`).
-/

namespace TaskSeries

open TaskSeries.Calendar TaskSeries.Text

/-! ## Columns -/

namespace SortField

/-- The entries of a column. -/
def Value : SortField → Type
  | due | entry => Instant
  | recur => Int
  | description => String

instance : (f : SortField) → LE f.Value
  | due | entry => inferInstanceAs (LE Instant)
  | recur => inferInstanceAs (LE Int)
  | description => inferInstanceAs (LE String)

instance : (f : SortField) → DecidableEq f.Value
  | due | entry => inferInstanceAs (DecidableEq Instant)
  | recur => inferInstanceAs (DecidableEq Int)
  | description => inferInstanceAs (DecidableEq String)

/-- The entry of a task in a column. Periods count by their nominal length, and texts in lower case. -/
def value? : (f : SortField) → Task → Option f.Value
  | due, t => t.due
  | recur, t => t.recur.map Period.nominalSeconds
  | entry, t => some t.entry
  | description, t => some (lowercase t.description)

/-- Compares entries of a column. -/
def compareValues : (f : SortField) → f.Value → f.Value → Ordering
  | due | entry => Instant.compare
  | recur => fun a b => compare (α := Int) a b
  | description => Listing.compareText

end SortField

namespace SortKey

/-- The first entry may stand before the second one. -/
def InDirection (key : SortKey) (a b : key.field.Value) : Prop :=
  if key.descending then b ≤ a else a ≤ b

/-- The tasks have the same entry, due date and place. -/
def Alike (key : SortKey) (a b : Task) : Prop :=
  key.field.value? a = key.field.value? b ∧ a.due = b.due ∧ a.mask = b.mask

instance (key : SortKey) (a b : Task) : Decidable (key.Alike a b) :=
  inferInstanceAs (Decidable (_ ∧ _ ∧ _))

end SortKey

namespace Listing

/-! ## Comparing entries -/

instance : Std.TransCmp Instant.compare :=
  inferInstanceAs (Std.TransCmp (compareLex (compareOn Instant.second) (compareOn Instant.nano)))

instance : Std.LawfulEqCmp Instant.compare where
  eq_of_compare := by
    intro a b h
    obtain ⟨hsecond, hnano⟩ := Ordering.then_eq_eq.mp h
    cases a
    cases b
    obtain rfl := Std.LawfulEqOrd.eq_of_compare hsecond
    obtain rfl := Std.LawfulEqOrd.eq_of_compare hnano
    rfl

lemma isLE_compare_iff (a b : Instant) : (Instant.compare a b).isLE = true ↔ a ≤ b := by
  show _ ↔ ¬ (b.second < a.second ∨ b.second = a.second ∧ b.nano < a.nano)
  unfold Instant.compare
  rw [Ordering.isLE_then_iff_or, Int.compare_eq_lt, Int.compare_eq_eq, Nat.isLE_compare]
  omega

/-- Texts are compared as the library compares them. -/
lemma compareText_eq : compareText = (compare : String → String → Ordering) := by
  funext a b
  show _ = compareOfLessAndEq a b
  unfold compareText compareOfLessAndEq
  by_cases hlt : a < b
  · rw [if_pos hlt, if_pos hlt]
  · by_cases heq : a = b
    · subst heq
      simp
    · have hgt : b < a := by
        rw [← String.not_le]
        intro hle
        exact heq (String.le_antisymm hle (String.not_lt.mp hlt))
      simp [hlt, heq, hgt]

/-- Texts are compared by the order of their characters. -/
lemma isLE_compareText_iff (a b : String) : (compareText a b).isLE = true ↔ a ≤ b := by
  show _ ↔ ¬ b < a
  unfold compareText
  by_cases hlt : a < b
  · simp [hlt, String.lt_asymm hlt]
  · by_cases hgt : b < a
    · simp [hlt, hgt]
    · simp [hlt, hgt]

instance : (f : SortField) → Std.TransCmp f.compareValues
  | .due | .entry => inferInstanceAs (Std.TransCmp Instant.compare)
  | .recur => inferInstanceAs (Std.TransOrd Int)
  | .description => by
    show Std.TransCmp compareText
    rw [compareText_eq]
    infer_instance

instance : (f : SortField) → Std.LawfulEqCmp f.compareValues
  | .due | .entry => inferInstanceAs (Std.LawfulEqCmp Instant.compare)
  | .recur => inferInstanceAs (Std.LawfulEqOrd Int)
  | .description => by
    show Std.LawfulEqCmp compareText
    rw [compareText_eq]
    infer_instance

/-- An entry stands before another one when it is not greater. -/
lemma isLE_compareValues_iff (f : SortField) (a b : f.Value) :
    (f.compareValues a b).isLE = true ↔ a ≤ b := by
  cases f with
  | due => exact isLE_compare_iff a b
  | entry => exact isLE_compare_iff a b
  | recur => exact Int.isLE_compare
  | description => exact isLE_compareText_iff a b

/-! ## Entries that are missing -/

section
variable {α : Type}

/-- Compares in one direction or the other. -/
def directed (cmp : α → α → Ordering) (descending : Bool) (a b : α) : Ordering :=
  if descending then cmp b a else cmp a b

/-- The second entry is missing, or it stands behind the first one, which is there. -/
def Leads (le : α → α → Prop) (a b : Option α) : Prop :=
  ∀ y ∈ b, ∃ x ∈ a, le x y

variable {cmp : α → α → Ordering} {descending : Bool}

instance [Std.TransCmp cmp] : Std.TransCmp (directed cmp descending) := by
  cases descending with
  | false => assumption
  | true => exact inferInstanceAs (Std.TransCmp fun a b => cmp b a)

instance [Std.TransCmp cmp] [Std.LawfulEqCmp cmp] : Std.LawfulEqCmp (directed cmp descending) := by
  cases descending with
  | false => assumption
  | true => exact inferInstanceAs (Std.LawfulEqCmp fun a b => cmp b a)

instance [Std.TransCmp cmp] : Std.TransCmp (comparePresent cmp descending) where
  eq_swap {a b} :=
    match a, b with
    | some x, some y => (Std.OrientedCmp.eq_swap : directed cmp descending x y = _)
    | some _, none | none, some _ | none, none => rfl
  isLE_trans {a b c} hab hbc :=
    match a, b, c with
    | some x, some y, some z =>
      have hxy : (directed cmp descending x y).isLE = true := hab
      have hyz : (directed cmp descending y z).isLE = true := hbc
      show (directed cmp descending x z).isLE = true from Std.TransCmp.isLE_trans hxy hyz
    | some _, _, none | none, none, none => rfl
    | none, some _, _ => absurd hab nofun
    | _, none, some _ => absurd hbc nofun

instance [Std.TransCmp cmp] [Std.LawfulEqCmp cmp] :
    Std.LawfulEqCmp (comparePresent cmp descending) where
  eq_of_compare {a b} h :=
    match a, b with
    | some x, some y =>
      have hxy : directed cmp descending x y = .eq := h
      congrArg some (Std.LawfulEqCmp.eq_of_compare hxy)
    | some _, none | none, some _ => absurd h nofun
    | none, none => rfl

/-- Present values come first and are compared in the given direction; absent ones come last. -/
lemma isLE_comparePresent_iff (a b : Option α) :
    (comparePresent cmp descending a b).isLE = true ↔
      Leads (fun x y => (directed cmp descending x y).isLE = true) a b := by
  cases a <;> cases b <;> simp [comparePresent, directed, Leads]

end

/-! ## Comparing tasks -/

/-- Tasks are compared by what the field of the key says about them. -/
lemma comparePrimary_eq (key : SortKey) (a b : Task) :
    comparePrimary key a b = comparePresent key.field.compareValues key.descending
      (key.field.value? a) (key.field.value? b) := by
  obtain ⟨field, descending⟩ := key
  cases field <;> rfl

/-- Values of tasks are compared as the values themselves. -/
lemma transCmp_comap {α β : Type} {cmp : α → α → Ordering} [Std.TransCmp cmp] (f : β → α) :
    Std.TransCmp fun a b => cmp (f a) (f b) where
  eq_swap := Std.OrientedCmp.eq_swap
  isLE_trans := Std.TransCmp.isLE_trans

instance (key : SortKey) : Std.TransCmp (compareTasks key) := by
  have hprimary : Std.TransCmp (comparePrimary key) := by
    rw [funext fun a => funext fun b => comparePrimary_eq key a b]
    exact transCmp_comap key.field.value?
  have hdue : Std.TransCmp fun a b : Task => comparePresent Instant.compare false a.due b.due :=
    transCmp_comap Task.due
  have hmask : Std.TransCmp fun a b : Task => comparePresent compare false a.mask b.mask :=
    transCmp_comap Task.mask
  exact inferInstanceAs (Std.TransCmp (compareLex (comparePrimary key)
    (compareLex (fun a b => comparePresent Instant.compare false a.due b.due)
      fun a b => comparePresent compare false a.mask b.mask)))

/-- Two tasks are not told apart when they are alike. -/
lemma compareTasks_eq_iff {key : SortKey} {a b : Task} :
    compareTasks key a b = .eq ↔ key.Alike a b := by
  unfold compareTasks SortKey.Alike
  rw [Ordering.then_eq_eq, Ordering.then_eq_eq, comparePrimary_eq, Std.LawfulEqCmp.compare_eq_iff_eq,
    Std.LawfulEqCmp.compare_eq_iff_eq, Std.LawfulEqCmp.compare_eq_iff_eq]

/-- A second comparison counts only where the first one sees no difference. -/
lemma isLE_then_iff {o o' : Ordering} :
    (o.then o').isLE = true ↔ o.isLE = true ∧ (o = .eq → o'.isLE = true) := by
  cases o <;> simp [Ordering.then]

/-- Tasks are in order by their entries, those with the same entry by due date, and the rest by place. -/
lemma isLE_compareTasks_iff {key : SortKey} {a b : Task} :
    (compareTasks key a b).isLE = true ↔
      Leads key.InDirection (key.field.value? a) (key.field.value? b) ∧
        (key.field.value? a = key.field.value? b →
          Leads (· ≤ ·) a.due b.due ∧ (a.due = b.due → Leads (· ≤ ·) a.mask b.mask)) := by
  have hdirection : ∀ x y : key.field.Value,
      (directed key.field.compareValues key.descending x y).isLE = true ↔ key.InDirection x y := by
    intro x y
    unfold directed SortKey.InDirection
    split
    · exact isLE_compareValues_iff key.field y x
    · exact isLE_compareValues_iff key.field x y
  have hdue : ∀ x y, (directed Instant.compare false x y).isLE = true ↔ x ≤ y := isLE_compare_iff
  have hmask : ∀ x y : Nat, (directed compare false x y).isLE = true ↔ x ≤ y :=
    fun _ _ => Nat.isLE_compare
  unfold compareTasks
  rw [isLE_then_iff, isLE_then_iff, comparePrimary_eq, Std.LawfulEqCmp.compare_eq_iff_eq,
    Std.LawfulEqCmp.compare_eq_iff_eq]
  simp only [isLE_comparePresent_iff, hdirection, hdue, hmask]

/-! ## Listings -/

/-- Comparing the other way round gives the opposite. -/
lemma compareTasks_swap (key : SortKey) (a b : Task) :
    compareTasks key b a = (compareTasks key a b).swap :=
  Std.OrientedCmp.eq_swap

lemma isLE_trans (key : SortKey) (a b c : Task) :
    (compareTasks key a b).isLE = true → (compareTasks key b c).isLE = true →
      (compareTasks key a c).isLE = true :=
  Std.TransCmp.isLE_trans

lemma isLE_total (key : SortKey) (a b : Task) :
    ((compareTasks key a b).isLE || (compareTasks key b a).isLE) = true := by
  rw [compareTasks_swap key a b]
  cases compareTasks key a b <;> rfl

/-- In a sorted list every task may stand in front of those behind it. -/
lemma pairwise_sort (key : SortKey) (tasks : List Task) :
    (sort key tasks).Pairwise fun a b => (compareTasks key a b).isLE = true :=
  List.pairwise_mergeSort (isLE_trans key) (isLE_total key) tasks

/-- Sorting keeps all tasks, each as often as it was there. -/
lemma sort_perm (key : SortKey) (tasks : List Task) : (sort key tasks).Perm tasks :=
  List.mergeSort_perm tasks _

/-- Sorting leaves tasks that are alike in their order. -/
lemma filter_alike_sort (key : SortKey) (tasks : List Task) (t : Task) :
    (sort key tasks).filter (key.Alike t) = tasks.filter (key.Alike t) := by
  have halike : (tasks.filter (key.Alike t)).Pairwise fun a b =>
      (compareTasks key a b).isLE = true := by
    apply List.pairwise_of_forall_mem_list
    intro a ha b hb
    obtain ⟨hvalue, hdue, hmask⟩ := of_decide_eq_true (List.mem_filter.mp ha).2
    obtain ⟨hvalue', hdue', hmask'⟩ := of_decide_eq_true (List.mem_filter.mp hb).2
    have hab : key.Alike a b :=
      ⟨hvalue.symm.trans hvalue', hdue.symm.trans hdue', hmask.symm.trans hmask'⟩
    rw [compareTasks_eq_iff.mpr hab]
    rfl
  -- in order already, they are found in this order among the sorted tasks
  have hkept : (tasks.filter (key.Alike t)).Sublist (sort key tasks) :=
    List.sublist_mergeSort (isLE_trans key) (isLE_total key) halike List.filter_sublist
  have hfiltered := hkept.filter (fun u => decide (key.Alike t u))
  rw [List.filter_filter] at hfiltered
  simp only [Bool.and_self] at hfiltered
  exact (hfiltered.eq_of_length ((sort_perm key tasks).filter _).length_eq.symm).symm

/-- Two members of a list stand in it in one order or the other. -/
lemma pair_sublist_or {α : Type} {l : List α} {a b : α} (ha : a ∈ l) (hb : b ∈ l) (hab : a ≠ b) :
    [a, b].Sublist l ∨ [b, a].Sublist l := by
  obtain ⟨front, rest, rfl⟩ := List.append_of_mem ha
  rw [List.mem_append, List.mem_cons] at hb
  rcases hb with hfront | rfl | hrest
  · right
    have hlast : [a].Sublist (a :: rest) := by simp
    exact (List.singleton_sublist.mpr hfront).append hlast
  · exact absurd rfl hab
  · left
    have hlast : [a, b].Sublist (a :: rest) := by simpa using hrest
    exact hlast.trans (List.sublist_append_right front _)

/-- Of two tasks that are told apart, the smaller one stands first in a list that is in order. -/
lemma pair_sublist_iff {key : SortKey} {l : List Task} {a b : Task}
    (hl : l.Pairwise fun a b => (compareTasks key a b).isLE = true) (ha : a ∈ l) (hb : b ∈ l)
    (hab : ¬ key.Alike a b) : [a, b].Sublist l ↔ compareTasks key a b = .lt := by
  have hne : compareTasks key a b ≠ .eq := fun h => hab (compareTasks_eq_iff.mp h)
  constructor
  · intro h
    have hle := List.pairwise_pair.mp (hl.sublist h)
    exact (Ordering.isLE_iff_eq_lt_or_eq_eq.mp hle).resolve_right hne
  · intro hlt
    have hdiffer : a ≠ b := by
      rintro rfl
      exact hab ⟨rfl, rfl, rfl⟩
    refine (pair_sublist_or ha hb hdiffer).resolve_right ?_
    intro h
    have hle := List.pairwise_pair.mp (hl.sublist h)
    rw [compareTasks_swap key a b, hlt] at hle
    exact absurd hle nofun

/-- A list holds the tasks of another one in the order of a key. -/
structure Listed (key : SortKey) (tasks listed : List Task) : Prop where
  perm : listed.Perm tasks
  /-- Tasks with an entry in the column stand in the direction of the key, in front of those without. -/
  values : listed.Pairwise fun a b =>
    Leads key.InDirection (key.field.value? a) (key.field.value? b)
  /-- Tasks with the same entry stand by due date, those without one last. -/
  dues : listed.Pairwise fun a b =>
    key.field.value? a = key.field.value? b → Leads (· ≤ ·) a.due b.due
  /-- Tasks that are due at the same time, too, stand by their place, those without one last. -/
  masks : listed.Pairwise fun a b =>
    key.field.value? a = key.field.value? b → a.due = b.due → Leads (· ≤ ·) a.mask b.mask
  /-- Tasks with the same entry, due date and place stand as they stood. -/
  stable : ∀ t, listed.filter (key.Alike t) = tasks.filter (key.Alike t)

lemma listed_sort (key : SortKey) (tasks : List Task) : Listed key tasks (sort key tasks) where
  perm := sort_perm key tasks
  values := (pairwise_sort key tasks).imp fun h => (isLE_compareTasks_iff.mp h).1
  dues := (pairwise_sort key tasks).imp fun h hvalue => ((isLE_compareTasks_iff.mp h).2 hvalue).1
  masks := (pairwise_sort key tasks).imp fun h hvalue => ((isLE_compareTasks_iff.mp h).2 hvalue).2
  stable := filter_alike_sort key tasks

/-- Tasks are compared by a total preorder for every key, and sorting puts them in the order of the key.
A list that is sorted stays as it is, and of two tasks that are told apart the same one stands first,
whatever the order of the tasks was before. -/
theorem sort_by_key (key : SortKey) :
    ((∀ a, (compareTasks key a a).isLE = true) ∧
      (∀ a b, (compareTasks key a b).isLE = true ∨ (compareTasks key b a).isLE = true) ∧
      (∀ a b c, (compareTasks key a b).isLE = true → (compareTasks key b c).isLE = true →
        (compareTasks key a c).isLE = true) ∧
      ∀ a b, compareTasks key b a = (compareTasks key a b).swap) ∧
    ∀ tasks, Listed key tasks (sort key tasks) ∧ sort key (sort key tasks) = sort key tasks ∧
      ∀ others, others.Perm tasks → ∀ a ∈ tasks, ∀ b ∈ tasks, ¬ key.Alike a b →
        ([a, b].Sublist (sort key others) ↔ [a, b].Sublist (sort key tasks)) := by
  refine ⟨⟨?_, ?_, isLE_trans key, compareTasks_swap key⟩, fun tasks => ⟨listed_sort key tasks, ?_, ?_⟩⟩
  · intro a
    rw [compareTasks_eq_iff.mpr ⟨rfl, rfl, rfl⟩]
    rfl
  · intro a b
    exact Bool.or_eq_true_iff.mp (isLE_total key a b)
  · exact List.mergeSort_of_pairwise (pairwise_sort key tasks)
  · intro others hothers a ha b hb hab
    have hmem : ∀ c ∈ tasks, c ∈ sort key tasks ∧ c ∈ sort key others := by
      intro c hc
      exact ⟨(sort_perm key tasks).mem_iff.mpr hc,
        (sort_perm key others).mem_iff.mpr (hothers.mem_iff.mpr hc)⟩
    rw [pair_sublist_iff (pairwise_sort key others) (hmem a ha).2 (hmem b hb).2 hab,
      pair_sublist_iff (pairwise_sort key tasks) (hmem a ha).1 (hmem b hb).1 hab]

end Listing

end TaskSeries
