import Chartbook.Calendar.Reading
import Chartbook.Proofs.Text.Blank

/-!
# Columns of dates

The first value of a column decides on the layout, and every cell is read with
it on its own.  A column is refused only if it has values and none of them is
read.  So rows after the first value that is read, and cells without a value at
any place, leave the dates of the other cells as they are.
-/

namespace Chartbook

variable {c : Cell} {cells : List Cell} {dates : List (Option Timestamp)}

/-! ## Values -/

def Cell.HasValue (c : Cell) : Prop :=
  ∃ s, c.text? = some s ∧ ¬Text.AllBlank s.toList

theorem Cell.isSome_dateText?_iff : c.dateText?.isSome = true ↔ c.HasValue := by
  rw [dateText?, HasValue, Option.isSome_filter]
  cases c.text? <;> simp [Text.trim_eq_nil_iff]

instance : DecidablePred Cell.HasValue := fun _ =>
  decidable_of_iff _ Cell.isSome_dateText?_iff

theorem Cell.dateText?_eq_none (h : ¬c.HasValue) : c.dateText? = none := by
  rwa [← isSome_dateText?_iff, Option.not_isSome_iff_eq_none] at h

def valueCount (cells : List Cell) : Nat := cells.countP fun c => c.HasValue

theorem valueCount_eq (cells : List Cell) :
    valueCount cells = cells.countP fun c => c.dateText?.isSome :=
  List.countP_congr fun c _ => by simp [← Cell.isSome_dateText?_iff]

theorem valueCount_pos_iff :
    0 < valueCount cells ↔ ∃ c ∈ cells, c.HasValue := by
  simp [valueCount, List.countP_pos_iff]

/-! ## The dates of a column -/

def layoutOf (cells : List Cell) : Layout :=
  Layout.ofTexts (cells.map Cell.dateText?)

def Cell.dateIn? (layout : Layout) (c : Cell) : Option Timestamp :=
  c.dateText?.bind layout.read

theorem Cell.dateIn?_eq_none {layout : Layout} (h : ¬c.HasValue) :
    c.dateIn? layout = none := by
  rw [dateIn?, dateText?_eq_none h, Option.bind_none]

theorem layoutOf_eq_of_findSome?_eq {cells' : List Cell}
    (h : cells'.findSome? Cell.dateText? = cells.findSome? Cell.dateText?) :
    layoutOf cells' = layoutOf cells := by
  simp only [layoutOf, Layout.ofTexts, List.findSome?_map, Function.id_comp, h]

def NoneRead (cells : List Cell) : Prop :=
  ∀ c ∈ cells, c.dateIn? (layoutOf cells) = none

instance : DecidablePred NoneRead := fun _ => List.decidableBAll _ _

theorem readDates_eq (cells : List Cell) :
    readDates cells =
      if 0 < valueCount cells ∧ NoneRead cells then
        .error ⟨valueCount cells⟩
      else .ok (cells.map fun c => c.dateIn? (layoutOf cells)) := by
  have hcount :
      ((cells.map Cell.dateText?).filterMap id).length = valueCount cells := by
    rw [List.length_filterMap_eq_countP, List.countP_map, valueCount_eq]
    rfl
  have hdates : ((cells.map Cell.dateText?).map fun t =>
      t.bind (layoutOf cells).read) =
        cells.map fun c => c.dateIn? (layoutOf cells) := by
    rw [List.map_map]
    rfl
  have hnone : (cells.map fun c => c.dateIn? (layoutOf cells)).all
      Option.isNone = true ↔ NoneRead cells := by
    simp [NoneRead]
  rw [layoutOf] at hdates hnone
  simp only [readDates, hcount, hdates, hnone, layoutOf]

theorem readDates_eq_error_iff {e : UnreadableDates} :
    readDates cells = .error e ↔
      e = ⟨valueCount cells⟩ ∧ 0 < valueCount cells ∧ NoneRead cells := by
  rw [readDates_eq]
  split
  · rename_i h
    simp [h, eq_comm]
  · rename_i h
    simp [h]

theorem readDates_eq_ok_iff :
    readDates cells = .ok dates ↔
      (0 < valueCount cells → ∃ c ∈ cells, c.dateIn? (layoutOf cells) ≠ none) ∧
        dates = cells.map fun c => c.dateIn? (layoutOf cells) := by
  rw [readDates_eq]
  split
  · rename_i h
    simp only [reduceCtorEq, false_iff, not_and]
    intro hread
    obtain ⟨c, hc, hdate⟩ := hread h.1
    exact absurd (h.2 c hc) hdate
  · rename_i h
    simp only [NoneRead, not_and, not_forall, exists_prop] at h
    rw [Except.ok.injEq, and_iff_right h, eq_comm]

theorem readDates_eq_map (h : readDates cells = .ok dates) :
    dates = cells.map fun c =>
      c.dateText?.bind (Layout.ofTexts (cells.map Cell.dateText?)).read :=
  (readDates_eq_ok_iff.mp h).2

theorem length_readDates (h : readDates cells = .ok dates) :
    dates.length = cells.length := by
  rw [readDates_eq_map h, List.length_map]

/-! ## Rows after the first value -/

private theorem layoutOf_append (h : ∃ c ∈ cells, c.HasValue)
    (more : List Cell) :
    layoutOf (cells ++ more) = layoutOf cells := by
  refine layoutOf_eq_of_findSome?_eq ?_
  obtain ⟨c, hc, hvalue⟩ := h
  rw [List.findSome?_append, Option.or_of_isSome]
  rw [List.findSome?_isSome_iff]
  exact ⟨c, hc, Cell.isSome_dateText?_iff.mpr hvalue⟩

theorem readDates_append (hvalue : ∃ c ∈ cells, c.HasValue)
    (h : readDates cells = .ok dates) (more : List Cell) :
    ∃ rest, readDates (cells ++ more) = .ok (dates ++ rest) := by
  obtain ⟨hread, rfl⟩ := readDates_eq_ok_iff.mp h
  obtain ⟨c, hc, hdate⟩ := hread (valueCount_pos_iff.mpr hvalue)
  refine ⟨more.map fun c => c.dateIn? (layoutOf cells),
    readDates_eq_ok_iff.mpr ?_⟩
  rw [layoutOf_append hvalue, List.map_append]
  exact ⟨fun _ => ⟨c, List.mem_append_left _ hc, hdate⟩, rfl⟩

/-! ## Cells without a value -/

/-- The second list is the first one with further members put in, all of which
satisfy `p`. -/
inductive IsPadded {α : Type} (p : α → Prop) : List α → List α → Prop
  | nil : IsPadded p [] []
  | keep {l l' : List α} (a : α) (h : IsPadded p l l') :
      IsPadded p (a :: l) (a :: l')
  | pad {l l' : List α} {a : α} (ha : p a) (h : IsPadded p l l') :
      IsPadded p l (a :: l')

namespace IsPadded

variable {α β : Type} {p : α → Prop} {l l' : List α}

theorem map {q : β → Prop} (h : IsPadded p l l') {f : α → β}
    (hf : ∀ a, p a → q (f a)) : IsPadded q (l.map f) (l'.map f) := by
  induction h with
  | nil => exact .nil
  | keep a _ ih => exact .keep (f a) ih
  | pad ha _ ih => exact .pad (hf _ ha) ih

private theorem findSome?_eq (h : IsPadded p l l') {f : α → Option β}
    (hf : ∀ a, p a → f a = none) : l'.findSome? f = l.findSome? f := by
  induction h with
  | nil => rfl
  | keep a _ ih => rw [List.findSome?_cons, List.findSome?_cons, ih]
  | pad ha _ ih => rw [List.findSome?_cons, hf _ ha, ih]

theorem filterMap_eq (h : IsPadded p l l') {f : α → Option β}
    (hf : ∀ a, p a → f a = none) : l'.filterMap f = l.filterMap f := by
  induction h with
  | nil => rfl
  | keep a _ ih => rw [List.filterMap_cons, List.filterMap_cons, ih]
  | pad ha _ ih => rw [List.filterMap_cons_none (hf _ ha), ih]

private theorem countP_eq (h : IsPadded p l l') {f : α → Bool}
    (hf : ∀ a, p a → f a = false) : l'.countP f = l.countP f := by
  induction h with
  | nil => rfl
  | keep a _ ih => rw [List.countP_cons, List.countP_cons, ih]
  | pad ha _ ih => rw [List.countP_cons_of_neg (by simp [hf _ ha]), ih]

theorem forall_iff (h : IsPadded p l l') {q : α → Prop}
    (hq : ∀ a, p a → q a) : (∀ a ∈ l', q a) ↔ ∀ a ∈ l, q a := by
  induction h with
  | nil => rfl
  | keep a _ ih => rw [List.forall_mem_cons, List.forall_mem_cons, ih]
  | pad ha _ ih => rw [List.forall_mem_cons, ih, and_iff_right (hq _ ha)]

end IsPadded

section Padded

variable {cells' : List Cell}
  (h : IsPadded (fun c => ¬c.HasValue) cells cells')
include h

theorem layoutOf_padded : layoutOf cells' = layoutOf cells :=
  layoutOf_eq_of_findSome?_eq (h.findSome?_eq fun _ => Cell.dateText?_eq_none)

private theorem valueCount_padded : valueCount cells' = valueCount cells :=
  h.countP_eq fun _ hvalue => decide_eq_false hvalue

private theorem noneRead_padded : NoneRead cells' ↔ NoneRead cells := by
  rw [NoneRead, NoneRead, layoutOf_padded h]
  exact h.forall_iff fun _ => Cell.dateIn?_eq_none

private theorem zip_readDates_padded {dates' : List (Option Timestamp)}
    (hdates : readDates cells = .ok dates)
    (hdates' : readDates cells' = .ok dates') :
    IsPadded (fun row => ¬row.1.HasValue ∧ row.2 = none) (cells.zip dates)
      (cells'.zip dates') := by
  have hzip (cells : List Cell) (f : Cell → Option Timestamp) :
      cells.zip (cells.map f) = cells.map fun c => (c, f c) := by
    have hzip := @List.zip_map' _ _ _ id f cells
    rwa [List.map_id] at hzip
  obtain ⟨-, rfl⟩ := readDates_eq_ok_iff.mp hdates
  obtain ⟨-, rfl⟩ := readDates_eq_ok_iff.mp hdates'
  rw [layoutOf_padded h, hzip, hzip]
  exact h.map fun c hvalue => ⟨hvalue, Cell.dateIn?_eq_none hvalue⟩

end Padded

/--
A column is refused exactly if it has values and none of them is read; else each
of its cells has its date or none.  Once a column with a value is read, rows
that come after it change nothing in its dates.  Cells without a value may be
put in anywhere: they have no date, and the other rows keep theirs.
-/
theorem readDates_stable (cells : List Cell) :
    (∀ dates, readDates cells = .ok dates →
      dates.length = cells.length ∧
        dates = cells.map fun c => c.dateIn? (layoutOf cells)) ∧
      (∀ e, readDates cells = .error e ↔
        e = ⟨valueCount cells⟩ ∧ 0 < valueCount cells ∧ NoneRead cells) ∧
      (∀ more dates, (∃ c ∈ cells, c.HasValue) →
        readDates cells = .ok dates →
        ∃ rest, readDates (cells ++ more) = .ok (dates ++ rest)) ∧
      ∀ cells', IsPadded (fun c => ¬c.HasValue) cells cells' →
        (∀ e, readDates cells' = .error e ↔ readDates cells = .error e) ∧
        ∀ dates dates', readDates cells = .ok dates →
          readDates cells' = .ok dates' →
          IsPadded (fun row => ¬row.1.HasValue ∧ row.2 = none)
            (cells.zip dates) (cells'.zip dates') := by
  refine ⟨fun dates h => ⟨length_readDates h, readDates_eq_map h⟩,
    fun e => readDates_eq_error_iff,
    fun more dates hvalue hdates => readDates_append hvalue hdates more,
    fun cells' h => ⟨fun e => ?_, fun dates dates' => zip_readDates_padded h⟩⟩
  rw [readDates_eq_error_iff, readDates_eq_error_iff, valueCount_padded h,
    noneRead_padded h]

theorem readDates_stable_blanks :
    let cells : List Cell := [.text "2024-02-30", .text "2024-03-01"]
    let march : Option Timestamp := some (.ofDate ⟨2024, 3, 1, by decide⟩)
    (∃ rest, readDates (cells ++ [.text "x"]) =
        .ok ([none, march] ++ rest)) ∧
      (∀ e, readDates (.null :: cells) ≠ .error e) ∧
      readDates [.text " ", .text "x", .null] = .error ⟨1⟩ := by
  intro cells march
  have hread : readDates cells = .ok [none, march] := rfl
  have hvalue : ∃ c ∈ cells, c.HasValue := by
    decide
  obtain ⟨-, -, happend, hpad⟩ := readDates_stable cells
  obtain ⟨-, herror, -, -⟩ := readDates_stable [.text " ", .text "x", .null]
  refine ⟨happend _ _ hvalue hread, fun e => ?_, ?_⟩
  · have hnull : IsPadded (fun c => ¬c.HasValue) cells (.null :: cells) :=
      .pad (by decide) (.keep _ (.keep _ .nil))
    rw [ne_eq, (hpad _ hnull).1 e, hread]
    exact nofun
  · exact (herror _).mpr ⟨by decide, by decide, by decide⟩

end Chartbook
