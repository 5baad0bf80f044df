import Chartbook.Dataset.Basic
import Chartbook.Table.Basic
import Mathlib.Data.List.Nodup

/-!
# Columns found by name

A name finds the first column that has it.  Where names are distinct, that is
the only one.
-/

namespace Chartbook

theorem find?_name_eq_some_iff {α : Type} {nameOf : α → String} {l : List α}
    (hnames : (l.map nameOf).Nodup) {name : String} {a : α} :
    l.find? (fun a => nameOf a = name) = some a ↔ a ∈ l ∧ nameOf a = name := by
  constructor
  · intro h
    exact ⟨List.mem_of_find?_eq_some h, by simpa using List.find?_some h⟩
  · rintro ⟨ha, rfl⟩
    cases hfind : l.find? fun b => nameOf b = nameOf a with
    | none =>
        have hne := List.find?_eq_none.mp hfind a ha
        simp at hne
    | some b =>
        have hname : nameOf b = nameOf a := by
          simpa using List.find?_some hfind
        have hb := List.mem_of_find?_eq_some hfind
        rw [List.inj_on_of_nodup_map hnames hb ha hname]

theorem Table.column?_eq_some_iff {t : Table} (hnames : t.columnNames.Nodup)
    {name : String} {c : Table.Column} :
    t.column? name = some c ↔ c ∈ t.columns ∧ c.name = name :=
  find?_name_eq_some_iff hnames

namespace Dataset

def columnNames (d : Dataset) : List String := d.columns.map (·.name)

theorem column?_eq_some_iff {d : Dataset} (hnames : d.columnNames.Nodup)
    {name : String} {c : Column} :
    d.column? name = some c ↔ c ∈ d.columns ∧ c.name = name :=
  find?_name_eq_some_iff hnames

theorem contains_iff {d : Dataset} {name : String} :
    d.contains name = true ↔ ∃ c ∈ d.columns, c.name = name := by
  simp [contains, column?]

theorem isDateColumn_iff_exists {d : Dataset} (hnames : d.columnNames.Nodup)
    {name : String} :
    d.isDateColumn name = true ↔
      ∃ c ∈ d.columns, c.name = name ∧ c.values.areDates = true := by
  unfold isDateColumn
  rw [Option.any_eq_true]
  simp only [column?_eq_some_iff hnames, and_assoc]

end Dataset

end Chartbook
