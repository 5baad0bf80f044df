import Chartbook.Dataset.Normalization
import Chartbook.Proofs.Calendar.Column
import Chartbook.Proofs.Number.ReadBack
import Mathlib.Data.List.Forall2
import Mathlib.Data.List.Range

/-!
# Faithful normalization

Normalization changes how the cells of a column are stored and nothing about
their rows.  The type of a column is that of the last entry with its name, and
the issues are those of unreadable dates before those of missing values.
-/

namespace Chartbook

/-! ## Cells -/

theorem Cell.number?_eq_bind_text? (c : Cell) :
    c.number? = c.text?.bind fun s => Number.ofLocale? s.toList := by
  cases c with
  | null => rfl
  | bool b => cases b <;> decide
  | number x =>
      rw [text?, Option.bind_some, Number.text, String.toList_ofList,
        Number.ofLocale?_plain]
      rfl
  | text s => rfl

theorem Cell.isNaN_of_number? {c : Cell} {x : Float} (h : c.number? = some x) :
    x.isNaN = false := by
  rw [number?_eq_bind_text?] at h
  obtain ⟨s, -, hs⟩ := Option.bind_eq_some_iff.mp h
  exact Number.isNaN_of_ofLocale? hs

theorem Cell.isNaN_of_plainNumber? {c : Cell} {x : Float}
    (h : c.plainNumber? = some x) : x.isNaN = false := by
  cases c with
  | null | bool b => contradiction
  | number y =>
      rw [plainNumber?] at h
      split at h
      · contradiction
      · rename_i hy
        cases h
        simpa using hy
  | text s => exact Number.isNaN_of_ofPlain? h

/-! ## Classified types -/

/-- The last entry with the name decides; without one the type is unknown. -/
inductive ClassifiedAs (name : String) : List ColumnClass → Dtype → Prop where
  | unlisted {classes : List ColumnClass} (h : ∀ e ∈ classes, e.name ≠ name) :
      ClassifiedAs name classes .unknown
  | listed {before after : List ColumnClass} {e : ColumnClass}
      (hname : e.name = name) (hlast : ∀ e' ∈ after, e'.name ≠ name) :
      ClassifiedAs name (before ++ e :: after) e.dtype

section ClassifiedAs

variable {name : String} {classes : List ColumnClass} {dtype : Dtype}

private theorem classifiedAs_dtypeOf (classes : List ColumnClass)
    (name : String) :
    ClassifiedAs name classes (dtypeOf classes name) := by
  rw [dtypeOf]
  cases hfind : classes.reverse.find? (·.name = name) with
  | none =>
      refine .unlisted fun e he => ?_
      simpa using List.find?_eq_none.mp hfind e (List.mem_reverse.mpr he)
  | some e =>
      obtain ⟨hname, after, before, heq, hlast⟩ :=
        List.find?_eq_some_iff_append.mp hfind
      have hclasses : classes = before.reverse ++ e :: after.reverse := by
        rw [← List.reverse_reverse classes, heq]
        simp
      rw [hclasses]
      refine .listed (by simpa using hname) fun e' he' => ?_
      simpa using hlast e' (List.mem_reverse.mp he')

theorem ClassifiedAs.dtypeOf_eq (h : ClassifiedAs name classes dtype) :
    dtypeOf classes name = dtype := by
  cases h with
  | unlisted h =>
      have hfind : classes.reverse.find? (·.name = name) = none := by
        refine List.find?_eq_none.mpr fun e he => ?_
        simpa using h e (List.mem_reverse.mp he)
      rw [dtypeOf, hfind]
      rfl
  | @listed before after e hname hlast =>
      have hfind : (before ++ e :: after).reverse.find? (·.name = name) =
          some e := by
        refine List.find?_eq_some_iff_append.mpr
          ⟨by simpa using hname, after.reverse, before.reverse, by simp,
            fun e' he' => ?_⟩
        simpa using hlast e' (List.mem_reverse.mp he')
      rw [dtypeOf, hfind]
      rfl

theorem classifiedAs_iff :
    ClassifiedAs name classes dtype ↔ dtypeOf classes name = dtype := by
  constructor
  · exact ClassifiedAs.dtypeOf_eq
  · rintro rfl
    exact classifiedAs_dtypeOf classes name

instance : Decidable (ClassifiedAs name classes dtype) :=
  decidable_of_iff' _ classifiedAs_iff

end ClassifiedAs

/-! ## Stored values -/

namespace Values

variable {dtype : Dtype} {cells : List Cell}

def IsNullOrNumber (c : Cell) : Prop := c = .null ∨ ∃ x, c = .number x

theorem ofCells_of_numbers (h : ∀ c ∈ cells, IsNullOrNumber c) :
    ofCells cells = numbers (cells.map Cell.number?) := by
  rw [ofCells, if_pos]
  · congr 1
    refine List.map_congr_left fun c hc => ?_
    rcases h c hc with rfl | ⟨x, rfl⟩ <;> rfl
  · refine List.all_eq_true.mpr fun c hc => ?_
    rcases h c hc with rfl | ⟨x, rfl⟩ <;> rfl

theorem ofCells_of_not_numbers (h : ¬∀ c ∈ cells, IsNullOrNumber c) :
    ofCells cells = texts cells := by
  rw [ofCells, if_neg]
  intro hall
  refine h fun c hc => ?_
  have hc' := List.all_eq_true.mp hall c hc
  cases c with
  | null => exact .inl rfl
  | number x => exact .inr ⟨x, rfl⟩
  | bool b => contradiction
  | text s => contradiction

def KeptAs (dtype : Dtype) (cells : List Cell) : Prop :=
  dtype ∈ [.string, .category, .unknown] ∨
    dtype = .date ∧ ∀ dates, readDates cells ≠ .ok dates

/-- How the cells of a column of a classified type are stored. -/
inductive StoredAs (dtype : Dtype) (cells : List Cell) : Values → Prop where
  | numeric (h : dtype ∈ [.number, .percent, .currency]) :
      StoredAs dtype cells (.numbers (cells.map Cell.number?))
  | dates {dates : List (Option Timestamp)} (h : dtype = .date)
      (hread : readDates cells = .ok dates) :
      StoredAs dtype cells (.dates dates)
  | numbers (h : KeptAs dtype cells) (hcells : ∀ c ∈ cells, IsNullOrNumber c) :
      StoredAs dtype cells (.numbers (cells.map Cell.number?))
  | texts (h : KeptAs dtype cells) (hcells : ¬∀ c ∈ cells, IsNullOrNumber c) :
      StoredAs dtype cells (.texts cells)

theorem KeptAs.not_dates (h : KeptAs dtype cells) :
    ¬(dtype = .date ∧ ∃ dates, readDates cells = .ok dates) := by
  rintro ⟨rfl, dates, hread⟩
  rcases h with h | ⟨-, h⟩
  · contradiction
  · exact h dates hread

theorem KeptAs.not_numeric (h : KeptAs dtype cells) :
    dtype ∉ [.number, .percent, .currency] := by
  rcases h with h | ⟨rfl, -⟩
  · revert h
    cases dtype <;> decide
  · decide

private theorem storedAs_ofCells (h : KeptAs dtype cells) :
    StoredAs dtype cells (ofCells cells) := by
  by_cases hcells : ∀ c ∈ cells, IsNullOrNumber c
  · rw [ofCells_of_numbers hcells]
    exact .numbers h hcells
  · rw [ofCells_of_not_numbers hcells]
    exact .texts h hcells

theorem storedAs_typed (dtype : Dtype) (cells : List Cell) :
    StoredAs dtype cells (typed dtype cells) := by
  cases dtype with
  | number => exact .numeric (by decide)
  | percent => exact .numeric (by decide)
  | currency => exact .numeric (by decide)
  | string => exact storedAs_ofCells (.inl (by decide))
  | category => exact storedAs_ofCells (.inl (by decide))
  | unknown => exact storedAs_ofCells (.inl (by decide))
  | date =>
      rw [typed]
      cases hread : readDates cells with
      | ok v => exact .dates rfl hread
      | error e =>
          refine storedAs_ofCells (.inr ⟨rfl, fun dates h => ?_⟩)
          rw [hread] at h
          contradiction

variable {values : Values}

theorem StoredAs.length_eq (h : StoredAs dtype cells values) :
    values.length = cells.length := by
  cases h with
  | numeric => exact List.length_map ..
  | dates _ hread => exact length_readDates hread
  | numbers => exact List.length_map ..
  | texts => rfl

theorem StoredAs.areDates_iff (h : StoredAs dtype cells values) :
    values.areDates = true ↔
      dtype = .date ∧ ∃ dates, readDates cells = .ok dates := by
  cases h with
  | numeric h =>
      refine ⟨nofun, ?_⟩
      rintro ⟨rfl, -⟩
      contradiction
  | dates h hread => exact ⟨fun _ => ⟨h, _, hread⟩, fun _ => rfl⟩
  | numbers h => exact ⟨nofun, fun hdates => absurd hdates h.not_dates⟩
  | texts h => exact ⟨nofun, fun hdates => absurd hdates h.not_dates⟩

theorem StoredAs.eq_numbers (h : StoredAs dtype cells values)
    (hdtype : dtype ∈ [.number, .percent, .currency]) :
    values = .numbers (cells.map Cell.number?) := by
  cases h with
  | numeric => rfl
  | dates hdate =>
      subst hdate
      contradiction
  | numbers hkept => rfl
  | texts hkept => exact absurd hdtype hkept.not_numeric

theorem StoredAs.isNaN_of_mem {v : List (Option Float)} {x : Float}
    (h : StoredAs dtype cells (.numbers v)) (hx : some x ∈ v) :
    x.isNaN = false := by
  have hv : v = cells.map Cell.number? := by
    cases h <;> rfl
  rw [hv] at hx
  obtain ⟨c, -, hc⟩ := List.mem_map.mp hx
  exact Cell.isNaN_of_number? hc

theorem StoredAs.isNaN_of_mem_numeric {x : Float}
    (h : StoredAs dtype cells values) (hx : some x ∈ values.numeric) :
    x.isNaN = false := by
  cases values with
  | numbers v => exact h.isNaN_of_mem hx
  | dates v =>
      obtain ⟨_, -, hnone⟩ := List.mem_map.mp hx
      contradiction
  | texts cells' =>
      obtain ⟨c, -, hc⟩ := List.mem_map.mp hx
      exact Cell.isNaN_of_plainNumber? hc

/-! ## Missing values -/

def missingAt (values : Values) (row : Nat) : Bool :=
  match values with
  | numbers v => v[row]? == some none
  | dates v => v[row]? == some none
  | texts cells => cells[row]? == some .null

private theorem countP_range_getElem? {α : Type} (p : Option α → Bool)
    (l : List α) :
    (List.range l.length).countP (fun i => p l[i]?) =
      l.countP fun a => p (some a) := by
  have hmap : (List.range l.length).map (l[·]?) = l.map some := by
    refine List.ext_getElem (by simp) fun i hi _ => ?_
    simp only [List.length_map, List.length_range] at hi
    simp [hi]
  calc (List.range l.length).countP (fun i => p l[i]?)
      = ((List.range l.length).map (l[·]?)).countP p := List.countP_map.symm
    _ = l.countP fun a => p (some a) := by
      rw [hmap, List.countP_map]
      rfl

theorem countP_missingAt (values : Values) :
    (List.range values.length).countP values.missingAt =
      values.missingCount := by
  cases values with
  | numbers v =>
      refine (countP_range_getElem? (· == some none) v).trans ?_
      refine List.countP_congr fun x _ => ?_
      cases x <;> simp
  | dates v =>
      refine (countP_range_getElem? (· == some none) v).trans ?_
      refine List.countP_congr fun t _ => ?_
      cases t <;> simp
  | texts cells =>
      refine (countP_range_getElem? (· == some .null) cells).trans ?_
      refine List.countP_congr fun c _ => ?_
      cases c <;> simp [Cell.isNull]

end Values

/-! ## Columns -/

namespace Table

variable {t : Table} {c : Column}

theorem length_le_rowCount (hc : c ∈ t.columns) :
    c.cells.length ≤ t.rowCount := by
  rw [rowCount]
  generalize t.columns = columns at hc
  induction columns with
  | nil => contradiction
  | cons first rest ih =>
      rw [List.foldr_cons]
      rcases List.mem_cons.mp hc with rfl | hrest
      · exact Nat.le_max_left ..
      · exact Nat.le_trans (ih hrest) (Nat.le_max_right ..)

/-- The cells of a column, then null cells down to the last row of the table. -/
def nullPadded (t : Table) (c : Column) : List Cell :=
  c.cells ++ List.replicate (t.rowCount - c.cells.length) .null

theorem padded_eq_nullPadded (hc : c ∈ t.columns) :
    c.padded t.rowCount = t.nullPadded c := by
  rw [Column.padded, nullPadded, List.take_of_length_le (length_le_rowCount hc)]

theorem length_nullPadded (hc : c ∈ t.columns) :
    (t.nullPadded c).length = t.rowCount := by
  have hle := length_le_rowCount hc
  rw [nullPadded, List.length_append, List.length_replicate]
  omega

/-- A column of a dataset holds what a column of a table has in each row. -/
structure Column.FaithfullyTyped (c : Column) (t : Table)
    (classes : List ColumnClass) (typed : Dataset.Column) : Prop where
  name : typed.name = c.name
  length : typed.values.length = t.rowCount
  known : typed.dtype ≠ .unknown
  stored : ∀ dtype, ClassifiedAs c.name classes dtype →
    Values.StoredAs dtype (t.nullPadded c) typed.values
  dates : typed.values.areDates = true ↔
    ClassifiedAs c.name classes .date ∧
      ∃ dates, readDates (t.nullPadded c) = .ok dates
  notNaN : ∀ v x, typed.values = .numbers v → some x ∈ v → x.isNaN = false

theorem faithfullyTyped_typedColumn (classes : List ColumnClass)
    (hc : c ∈ t.columns) :
    c.FaithfullyTyped t classes
      (typedColumn t.rowCount (dtypeOf classes c.name) c) := by
  have hstored := Values.storedAs_typed (dtypeOf classes c.name)
    (t.nullPadded c)
  rw [typedColumn, padded_eq_nullPadded hc]
  exact {
    name := rfl
    length := hstored.length_eq.trans (length_nullPadded hc)
    known := by
      dsimp only
      split
      · cases Values.typed (dtypeOf classes c.name) (t.nullPadded c) <;>
          simp [Values.inferred]
      · assumption
    stored := by
      intro dtype hclass
      rw [← hclass.dtypeOf_eq]
      exact hstored
    dates := by
      rw [classifiedAs_iff]
      exact hstored.areDates_iff
    notNaN := by
      intro v x hv
      dsimp only at hv
      rw [hv] at hstored
      exact hstored.isNaN_of_mem }

end Table

/-! ## Issues -/

theorem filterMap_ite {α β : Type} (p : α → Bool) (f : α → β) (l : List α) :
    l.filterMap (fun a => if p a then some (f a) else none) =
      (l.filter p).map f := by
  rw [← List.filterMap_eq_map', List.filterMap_filter]

def Dataset.Column.missingRows (c : Dataset.Column) (rows : Nat) : Nat :=
  (List.range rows).countP c.values.missingAt

namespace Table

variable {t : Table} {c : Column}

def hasUnreadableDates (t : Table) (classes : List ColumnClass)
    (c : Column) : Bool :=
  ClassifiedAs c.name classes .date && !(readDates (t.nullPadded c)).isOk

def unreadableIssue (t : Table) (c : Column) : Issue :=
  .unreadableDates c.name
    ⟨(t.nullPadded c).countP fun cell => cell.dateText?.isSome⟩

private theorem readDates_eq_error {cells : List Cell} {cause : UnreadableDates}
    (h : readDates cells = .error cause) :
    cause = ⟨cells.countP fun c => c.dateText?.isSome⟩ := by
  rw [(readDates_eq_error_iff.mp h).1, valueCount_eq]

private theorem dateIssue?_eq (classes : List ColumnClass)
    (hc : c ∈ t.columns) :
    dateIssue? t.rowCount (dtypeOf classes c.name) c =
      if t.hasUnreadableDates classes c then some (t.unreadableIssue c)
      else none := by
  rw [dateIssue?, padded_eq_nullPadded hc, hasUnreadableDates]
  by_cases hclass : ClassifiedAs c.name classes .date
  · rw [if_pos hclass.dtypeOf_eq]
    cases hread : readDates (t.nullPadded c) with
    | ok dates => simp [Except.isOk, Except.toBool]
    | error cause =>
        simp [hclass, Except.isOk, Except.toBool, unreadableIssue,
          readDates_eq_error hread]
  · rw [if_neg fun hdate => hclass (classifiedAs_iff.mpr hdate)]
    simp [hclass]

private theorem missingIssue?_eq {typed : Dataset.Column}
    (h : typed.values.length = t.rowCount) :
    typed.missingIssue? =
      if 0 < typed.missingRows t.rowCount then
        some (.missing typed.name (typed.missingRows t.rowCount))
      else none := by
  rw [Dataset.Column.missingIssue?, Dataset.Column.missingRows, ← h,
    Values.countP_missingAt]

/--
Normalization keeps the columns, their names and order and the rows.  Each
column holds its cells, null where the table has none, as the type that it is
classified as says.  First come the issues of the columns of dates that cannot
be read, then those of the columns with missing values, column by column.
-/
theorem normalize_faithful (t : Table) (classes : List ColumnClass) :
    (t.normalize classes).dataset.columns.map (·.name) = t.columnNames ∧
    (t.normalize classes).dataset.rowCount = t.rowCount ∧
    List.Forall₂ (fun c typed => c.FaithfullyTyped t classes typed)
      t.columns (t.normalize classes).dataset.columns ∧
    (t.normalize classes).issues =
      (t.columns.filter (t.hasUnreadableDates classes)).map
        t.unreadableIssue ++
      ((t.normalize classes).dataset.columns.filter fun typed =>
        0 < typed.missingRows t.rowCount).map fun typed =>
          .missing typed.name (typed.missingRows t.rowCount) := by
  refine ⟨List.map_map, rfl, ?_, ?_⟩
  · refine List.forall₂_map_right_iff.mpr (List.forall₂_same.mpr fun c hc => ?_)
    exact faithfullyTyped_typedColumn classes hc
  · rw [← filterMap_ite, ← filterMap_ite]
    have hdates : t.columns.filterMap (fun c =>
        dateIssue? t.rowCount (dtypeOf classes c.name) c) =
        t.columns.filterMap fun c =>
          if t.hasUnreadableDates classes c then some (t.unreadableIssue c)
          else none :=
      List.filterMap_congr fun c hc => dateIssue?_eq classes hc
    have hmissing : (t.normalize classes).dataset.columns.filterMap
        Dataset.Column.missingIssue? =
        (t.normalize classes).dataset.columns.filterMap fun typed =>
          if 0 < typed.missingRows t.rowCount then
            some (.missing typed.name (typed.missingRows t.rowCount))
          else none := by
      apply List.filterMap_congr
      intro typed htyped
      obtain ⟨c, hc, rfl⟩ := List.mem_map.mp htyped
      exact missingIssue?_eq (faithfullyTyped_typedColumn classes hc).length
    simp only [decide_eq_true_eq, ← hdates, ← hmissing]
    rfl

end Table

end Chartbook
