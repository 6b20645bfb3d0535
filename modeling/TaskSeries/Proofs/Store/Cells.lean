import TaskSeries.Proofs.Store.Rows
import TaskSeries.Proofs.Task.Id
import TaskSeries.Task.Record

/-!
# Rows as cells

The table of tasks has a column for every field, and a row of it is what the cells of its columns hold
(`Row.cell`). An insertion binds all columns (`Row.cell_ofTask`), an update binds ten of them and leaves
the others as they are (`Row.cell_update`). A task is read back column by column: all fields come back,
the instants as they are stored (`Task.ofCells?_cell`). The rows that a query takes are told by their
cells alone (`Row.toldByCells`).
-/

namespace TaskSeries

open TaskSeries.Calendar TaskSeries.Text

/-- The columns of the table of tasks. -/
inductive Field
  | id | description | status | project | priority | tags
  | entry | modified | finished | due | expiry | recur | parent | mask
deriving DecidableEq, Repr

/-- The column as one that may hold something else than a value of its own. -/
def Field.column? : Field → Option Column
  | status => some .status
  | tags => some .tags
  | entry => some .entry
  | modified => some .modified
  | finished => some .finished
  | due => some .due
  | expiry => some .expiry
  | recur => some .recur
  | mask => some .mask
  | id | description | project | priority | parent => none

/-- An update of a task binds the column. -/
def Field.isUpdated : Field → Bool
  | description | status | project | priority | tags => true
  | modified | finished | due | expiry | recur => true
  | id | entry | parent | mask => false

/-- What a cell holds: a number or a text, or the text of a JSON value. -/
inductive Cell
  | content (c : Content)
  | json (j : Json)

namespace Cell

/-- A cell with a number. -/
def number (n : Int) : Cell := content (.number n)

/-- A cell with a text. -/
def text (s : String) : Cell := content (.text s)

/-- The text in a cell. -/
def text? : Cell → Option String
  | content (.text s) => some s
  | _ => none

/-- The number in a cell. -/
def number? : Cell → Option Int
  | content (.number n) => some n
  | _ => none

/-- The value whose JSON text is in a cell. -/
def json? : Cell → Option Json
  | json j => some j
  | _ => none

/-- The instant whose milliseconds are in a cell. -/
def instant? (c : Cell) : Option Instant := c.number?.bind Instant.ofMillis?

/-- The identifier that is written in a cell. -/
def id? (c : Cell) : Option TaskId := c.text?.bind TaskId.ofText?

/-- The number in a cell, if it fits into 32 bits without a sign. -/
def nat32? (c : Cell) : Option Nat :=
  c.number?.bind fun n => if FitsNat 32 n then some n.toNat else none

/-- Reads the cell of a column that may be empty. -/
def optional? {α : Type} (read : Cell → Option α) : Option Cell → Option (Option α)
  | none => some none
  | some c => (read c).map some

end Cell

namespace Task

/-- What an insertion of the task binds to the columns. -/
def cell (t : Task) : Field → Option Cell
  | .id => some (.text t.id.text)
  | .description => some (.text t.description)
  | .status => some (.text t.status.name)
  | .project => t.project.map .text
  | .priority => t.priority.map .text
  | .tags => some (.json (.arr (t.tags.map .str)))
  | .entry => some (.number t.entry.toMillis)
  | .modified => some (.number t.modified.toMillis)
  | .finished => t.finished.map fun i => .number i.toMillis
  | .due => t.due.map fun i => .number i.toMillis
  | .expiry => t.expiry.map fun i => .number i.toMillis
  | .recur => t.recur.map fun p => .json p.toJson
  | .parent => t.parent.map fun id => .text id.text
  | .mask => t.mask.map fun (n : Nat) => .number n

/-- Reads a task from the cells of a row. -/
def ofCells? (cell : Field → Option Cell) : Option Task := do
  let id ← (cell .id).bind Cell.id?
  let description ← (cell .description).bind Cell.text?
  let status ← ((cell .status).bind Cell.text?).bind Status.ofName?
  let project ← Cell.optional? Cell.text? (cell .project)
  let priority ← Cell.optional? Cell.text? (cell .priority)
  let tags ← Cell.optional? (fun c => c.json?.bind Json.strs?) (cell .tags)
  let recur ← Cell.optional? (fun c => c.json?.bind Period.ofJson?) (cell .recur)
  let mask ← Cell.optional? Cell.nat32? (cell .mask)
  let entry ← (cell .entry).bind Cell.instant?
  let modified ← (cell .modified).bind Cell.instant?
  let finished ← Cell.optional? Cell.instant? (cell .finished)
  let due ← Cell.optional? Cell.instant? (cell .due)
  let expiry ← Cell.optional? Cell.instant? (cell .expiry)
  let parent ← Cell.optional? Cell.id? (cell .parent)
  some ⟨id, description, status, project, priority, tags.getD [], entry, modified, finished, due,
    expiry, recur, parent, mask⟩

end Task

/-! ## Values in cells -/

/-- The numbers of a period fit into its record. -/
def Period.Fits : Period → Prop
  | calendar _ step _ => FitsNat 32 step
  | exact seconds => FitsInt 64 seconds

/-- The numbers of a task fit into its row. -/
structure Task.Fits (t : Task) : Prop where
  mask : ∀ n ∈ t.mask, FitsNat 32 (n : Nat)
  recur : ∀ p ∈ t.recur, p.Fits

instance (p : Period) : Decidable p.Fits :=
  match p with
  | .calendar _ step _ => inferInstanceAs (Decidable (FitsNat 32 step))
  | .exact seconds => inferInstanceAs (Decidable (FitsInt 64 seconds))

lemma Status.ofName?_name (s : Status) : ofName? s.name = some s := by
  cases s <;> rfl

lemma CalendarUnit.ofName?_name (u : CalendarUnit) : ofName? u.name = some u := by
  cases u <;> rfl

lemma Json.nat32?_natCast {n : Nat} (h : FitsNat 32 n) : nat32? (.int n) = some n := by
  unfold nat32?
  dsimp only
  rw [if_pos h, Int.toNat_natCast]

/-- The record of a calendar period with whatever reads as its fields. -/
lemma Period.ofJson?_calendar {unit : CalendarUnit} {step : Nat} {skipWeekends : Bool} {u n b : Json}
    (hu : unitOfJson? u = some unit) (hn : n.nat32? = some step) (hb : b.bool? = some skipWeekends) :
    ofJson? (.obj [("kind", .str "calendar"), ("unit", u), ("step", n), ("skip_weekends", b)]) =
      some (.calendar unit step skipWeekends) := by
  simp [ofJson?, ofFields?, Json.record?, Json.lookupOnce, Json.str?, hu, hn, hb]

/-- The record of an exact period with whatever reads as its field. -/
lemma Period.ofJson?_exact {seconds : Int} {n : Json} (hn : n.int64? = some seconds) :
    ofJson? (.obj [("kind", .str "exact"), ("seconds", n)]) = some (.exact seconds) := by
  simp [ofJson?, ofFields?, Json.record?, Json.lookupOnce, Json.str?, hn]

/-- The record of a period reads as the period. -/
lemma Period.ofJson?_toJson {p : Period} (h : p.Fits) : ofJson? p.toJson = some p := by
  cases p with
  | calendar unit step skipWeekends =>
    exact ofJson?_calendar unit.ofName?_name (Json.nat32?_natCast h) rfl
  | exact seconds => exact ofJson?_exact (if_pos h)

lemma Json.strs?_arr (tags : List String) : strs? (.arr (tags.map .str)) = some tags := by
  show (tags.map Json.str).mapM str? = some tags
  induction tags with
  | nil => rfl
  | cons tag tags ih => simp [str?, ih]

namespace Cell

/-- A number of 32 bits is read back from its cell. -/
lemma nat32?_of_number? {c : Cell} {n : Nat} (hc : c.number? = some (n : Int))
    (h : FitsNat 32 n) : c.nat32? = some n := by
  unfold nat32?
  rw [hc, Option.bind_some, if_pos h, Int.toNat_natCast]

/-- What is written when it is there is read back, and nothing is read as nothing. -/
lemma optional?_map {α : Type} {write : α → Cell} {read : Cell → Option α} {o : Option α}
    (h : ∀ a ∈ o, read (write a) = some a) : optional? read (o.map write) = some o := by
  cases o with
  | none => rfl
  | some a =>
    show (read (write a)).map some = _
    rw [h a rfl]
    rfl

/-- Milliseconds are read back to the instant that they are kept as, unless it is in the last leap
second. -/
lemma instant?_number {i : Instant} (h : i ≤ .lastRegular) :
    instant? (number i.toMillis) = some i.stored := by
  show Instant.ofMillis? i.toMillis = _
  cases hback : Instant.ofMillis? i.toMillis with
  | none => exact absurd ((Instant.ofMillis?_toMillis_eq_none_iff i).mp hback) h
  | some j =>
    unfold Instant.stored
    rw [hback]
    rfl

lemma optional?_instant {o : Option Instant} (h : ∀ i ∈ o.toList, i ≤ .lastRegular) :
    optional? instant? (o.map fun i => number i.toMillis) = some (o.map Instant.stored) := by
  cases o with
  | none => rfl
  | some i =>
    show (instant? _).map some = _
    rw [instant?_number (h i List.mem_cons_self)]
    rfl

end Cell

/-- A task is read back from its cells with all its fields, the instants as they are stored. -/
lemma Task.ofCells?_cell {t : Task} (hfits : t.Fits) (h : t.Readable) :
    ofCells? t.cell = some t.stored := by
  unfold Readable instants at h
  simp only [List.forall_mem_cons, List.forall_mem_append] at h
  obtain ⟨hentry, hmodified, ⟨hfinished, hdue⟩, hexpiry⟩ := h
  have hid : ∀ id : TaskId, Cell.id? (.text id.text) = some id := by
    intro id
    show (some id.text).bind TaskId.ofText? = some id
    rw [Option.bind_some, id.ofText?_text]
  have hmask : ∀ n ∈ t.mask, Cell.nat32? (.number (n : Nat)) = some n :=
    fun n hn => Cell.nat32?_of_number? rfl (hfits.mask n hn)
  have hrecur : Cell.optional? (fun c => c.json?.bind Period.ofJson?)
      (t.recur.map fun p => .json p.toJson) = some t.recur :=
    Cell.optional?_map fun p hp => Period.ofJson?_toJson (hfits.recur p hp)
  have htext : ∀ s : String, Cell.text? (.text s) = some s := fun _ => rfl
  have htags : Cell.optional? (fun c => c.json?.bind Json.strs?)
      (some (.json (.arr (t.tags.map .str)))) = some (some t.tags) :=
    congrArg (Option.map some) (Json.strs?_arr t.tags)
  unfold ofCells? cell
  simp only [Option.bind_some, hid, htext, t.status.ofName?_name, htags, Cell.instant?_number hentry,
    Cell.instant?_number hmodified, Cell.optional?_instant hfinished, Cell.optional?_instant hdue,
    Cell.optional?_instant hexpiry, Cell.optional?_map hmask, hrecur,
    Cell.optional?_map fun s _ => htext s, Cell.optional?_map fun id _ => hid id]
  rfl

/-- Only regular instants are read back from their milliseconds. -/
lemma Cell.le_lastRegular_of_instant? {i j : Instant} (h : instant? (number i.toMillis) = some j) :
    i ≤ .lastRegular := by
  intro hlast
  rw [← Instant.ofMillis?_toMillis_eq_none_iff] at hlast
  exact absurd (hlast.symm.trans h) nofun

lemma Cell.le_lastRegular_of_optional? {o o' : Option Instant}
    (h : optional? instant? (o.map fun i => number i.toMillis) = some o') :
    ∀ i ∈ o.toList, i ≤ .lastRegular := by
  cases o with
  | none => exact fun i hi => absurd hi List.not_mem_nil
  | some i =>
    obtain ⟨j, hj, -⟩ := Option.map_eq_some_iff.mp h
    rw [Option.toList_some, List.forall_mem_singleton]
    exact le_lastRegular_of_instant? hj

/-- Cells from which a task is read back hold regular instants. -/
lemma Task.readable_of_ofCells? {t u : Task} (h : ofCells? t.cell = some u) : t.Readable := by
  unfold ofCells? at h
  -- eight columns stand in front of those of the instants
  iterate 8 obtain ⟨_, -, h⟩ := Option.bind_eq_some_iff.mp h
  obtain ⟨_, hentry, h⟩ := Option.bind_eq_some_iff.mp h
  obtain ⟨_, hmodified, h⟩ := Option.bind_eq_some_iff.mp h
  obtain ⟨_, hfinished, h⟩ := Option.bind_eq_some_iff.mp h
  obtain ⟨_, hdue, h⟩ := Option.bind_eq_some_iff.mp h
  obtain ⟨_, hexpiry, -⟩ := Option.bind_eq_some_iff.mp h
  unfold Readable instants
  simp only [List.forall_mem_cons, List.forall_mem_append]
  exact ⟨Cell.le_lastRegular_of_instant? hentry, Cell.le_lastRegular_of_instant? hmodified,
    ⟨Cell.le_lastRegular_of_optional? hfinished, Cell.le_lastRegular_of_optional? hdue⟩,
    Cell.le_lastRegular_of_optional? hexpiry⟩

/-- The milliseconds that are bound for an instant are those of its stored form. -/
lemma Task.cell_stored (t : Task) : t.stored.cell = t.cell := by
  funext f
  cases f <;> simp [cell, stored, Instant.toMillis_stored, Function.comp_def]

/-! ## Rows -/

namespace Row

/-- What a cell of the row holds. -/
def cell (r : Row) (f : Field) : Option Cell :=
  match f.column?.bind r.strayIn with
  | some c => some (.content c)
  | none => r.task.cell f

variable {r : Row} {t : Task}

lemma mem_stray_of_strayIn {c : Column} {x : Content} (h : r.strayIn c = some x) :
    (c, x) ∈ r.stray := by
  obtain ⟨⟨c', x'⟩, hfind, rfl⟩ := Option.map_eq_some_iff.mp h
  have hcolumn : c' = c := eq_of_beq (List.find?_some hfind :)
  rw [← hcolumn]
  exact List.mem_of_find?_eq_some hfind

/-- A cell for an instant out of range holds the milliseconds of this instant. -/
lemma exists_of_mem_overflow {c : Column} {i : Option Instant} {x : Column × Content}
    (h : x ∈ overflow c i) : ∃ j ∈ i, x = (c, .number j.toMillis) := by
  unfold overflow at h
  split at h
  · exact absurd h List.not_mem_nil
  · rename_i j
    split at h
    · exact absurd h List.not_mem_nil
    · exact ⟨j, rfl, List.mem_singleton.mp h⟩

/-- An insertion binds every column. -/
lemma cell_ofTask (t : Task) : (ofTask t).cell = t.cell := by
  funext f
  unfold cell
  split
  · rename_i x hx
    obtain ⟨c, hc, hstray⟩ := Option.bind_eq_some_iff.mp hx
    have hmem := mem_stray_of_strayIn hstray
    simp only [ofTask, List.mem_append] at hmem
    rcases hmem with (((hmem | hmem) | hmem) | hmem) | hmem <;>
    · obtain ⟨i, hi, heq⟩ := exists_of_mem_overflow hmem
      obtain ⟨rfl, rfl⟩ := Prod.mk.inj heq
      cases f <;> simp_all [Field.column?, Task.cell, Cell.number]
  · exact congrFun (Task.cell_stored t) f

/-- A column is looked up among the cells of some columns as among all cells, if it is one of these. -/
lemma find?_filter_column (cells : List (Column × Content)) (q : Column → Bool) (c : Column) :
    (cells.filter fun (c, _) => q c).find? (·.1 == c) =
      if q c then cells.find? (·.1 == c) else none := by
  rw [List.find?_filter]
  have hcolumn : ∀ x : Column × Content, (x.1 == c) = true → q x.1 = q c :=
    fun x hx => congrArg q (eq_of_beq hx)
  cases hq : q c with
  | true =>
    rw [if_pos rfl]
    congr 1
    funext x
    cases hx : x.1 == c with
    | true => simp [hcolumn x hx, hq]
    | false => simp
  | false =>
    rw [if_neg Bool.false_ne_true, List.find?_eq_none]
    intro x _
    cases hx : x.1 == c with
    | true => simp [hcolumn x hx, hq]
    | false => simp

/-- An update leaves what is in a column alone, or puts there what an insertion would. -/
lemma strayIn_update (c : Column) :
    (r.update t).strayIn c = if c.isFixed then r.strayIn c else (ofTask t).strayIn c := by
  unfold strayIn update
  dsimp only
  rw [List.find?_append, find?_filter_column r.stray Column.isFixed,
    find?_filter_column (ofTask t).stray fun c => !c.isFixed]
  cases c.isFixed <;> simp

/-- An update binds the columns that it is meant to bind and leaves the others as they are. -/
lemma cell_update (h : t.id = r.id) (f : Field) :
    (r.update t).cell f = if f.isUpdated then t.cell f else r.cell f := by
  have htask : (r.update t).task.cell f =
      if f.isUpdated then (ofTask t).task.cell f else r.task.cell f := by
    cases f with
    | id => exact congrArg (fun id : TaskId => some (Cell.text id.text)) h
    | _ => rfl
  have hstray : f.column?.bind (r.update t).strayIn =
      if f.isUpdated then f.column?.bind (ofTask t).strayIn else f.column?.bind r.strayIn := by
    cases f with
    | id | description | project | priority | parent => rfl
    | _ => exact strayIn_update _
  rw [← cell_ofTask]
  unfold cell
  rw [htask, hstray]
  cases f.isUpdated <;> rfl

/-- The cells of a sound row are those of its task. -/
lemma Sound.cell_eq (h : r.Sound) : r.cell = r.task.cell := by
  rw [← h, cell_ofTask, h]

/-- The cells of a sound row read as the row does. -/
lemma Sound.ofCells?_cell (h : r.Sound) (hfits : r.task.Fits) :
    Task.ofCells? r.cell = r.read? := by
  rw [h.cell_eq]
  by_cases hreadable : r.task.Readable
  · rw [Task.ofCells?_cell hfits hreadable, h.stored_task]
    exact (h.read?_eq_some_iff.mpr ⟨hreadable, rfl⟩).symm
  · have hcells : Task.ofCells? r.task.cell = none := by
      rw [Option.eq_none_iff_forall_ne_some]
      exact fun u hu => hreadable (Task.readable_of_ofCells? hu)
    have hread : r.read? = none := by
      rw [Option.eq_none_iff_forall_ne_some]
      exact fun u hu => hreadable (h.read?_eq_some_iff.mp hu).1
    rw [hcells, hread]

/-! ## Conditions of queries -/

/-- What a query asks of a row is told by its cells. -/
structure ToldByCells (r : Row) : Prop where
  /-- The cell of the id holds the written form of the id. -/
  id_iff : ∀ id, r.id = id ↔ r.cell .id = some (.text id.text)
  /-- The cell of the parent holds the written form of the parent's id, or nothing. -/
  parent_iff : ∀ p, r.task.parent = some p ↔ r.cell .parent = some (.text p.text)
  /-- The active parents have something in the cell of the period, nothing in that of the parent, and the
  name of an open status. -/
  isActiveParent_iff : r.Sound → (r.isActiveParent = true ↔
    (r.cell .recur).isSome = true ∧ r.cell .parent = none ∧
      (r.cell .status = some (.text "pending") ∨ r.cell .status = some (.text "waiting")))

lemma text_inj {a b : TaskId} (h : Cell.text a.text = Cell.text b.text) : a = b := by
  injection h with h
  injection h with h
  exact TaskId.text_injective h

/-- What a query asks of a row is told by the cells, for every row. -/
lemma toldByCells (r : Row) : r.ToldByCells where
  id_iff id := by
    constructor
    · rintro rfl
      rfl
    · exact fun h => text_inj (Option.some.inj h)
  parent_iff p := by
    show _ ↔ r.task.parent.map (fun id => Cell.text id.text) = _
    rw [Option.map_eq_some_iff]
    constructor
    · exact fun h => ⟨p, h, rfl⟩
    · rintro ⟨id, hid, heq⟩
      rw [hid, text_inj heq]
  isActiveParent_iff h := by
    rw [h.isActiveParent_eq, h.cell_eq]
    unfold Task.isActiveParent Task.isRecurringParent Task.cell
    cases r.task.status <;> simp [Status.isOpen, Status.name, Cell.text]

end Row

end TaskSeries
