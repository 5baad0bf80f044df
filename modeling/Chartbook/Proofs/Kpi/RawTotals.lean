import Chartbook.Proofs.Classification
import Chartbook.Proofs.Dataset.Normalization
import Chartbook.Proofs.Kpi.Calls
import Chartbook.Proofs.Named

/-!
# Totals of raw cells

The sum, the count and the attainment of columns that are classified as numbers
are those of the raw cells, each read as the text that it shows.
-/

namespace Chartbook

namespace Table

def Column.rawNumbers (c : Column) : List Float :=
  c.cells.filterMap fun cell =>
    cell.text?.bind fun s => Number.ofLocale? s.toList

/-- The sum from the first row to the last; the sum of no numbers is -0. -/
def Column.rawSum (c : Column) : Float :=
  c.rawNumbers.foldl (fun sum x => sum + x) (-0.0)

/-! ## The column of a name -/

theorem column?_normalize (t : Table) (classes : List ColumnClass)
    (name : String) :
    (t.normalize classes).dataset.column? name = (t.column? name).map fun c =>
      typedColumn t.rowCount (dtypeOf classes c.name) c :=
  List.find?_map ..

section Checked

variable {t : Table} {classes checked : List ColumnClass} {e : ColumnClass}

private theorem exists_column_of_check (h : t.check classes = .ok checked)
    (he : e ∈ classes) : ∃ c ∈ t.columns, c.name = e.name := by
  obtain ⟨haccepts, -⟩ := check_eq_ok_iff.mp h
  exact List.mem_map.mp (haccepts.known e he)

private theorem classifiedAs_of_check (h : t.check classes = .ok checked)
    (he : e ∈ classes) : ClassifiedAs e.name classes e.dtype := by
  obtain ⟨⟨-, hdistinct⟩, -⟩ := check_eq_ok_iff.mp h
  obtain ⟨before, after, rfl⟩ := List.append_of_mem he
  refine .listed rfl fun e' he' hname => ?_
  rw [List.map_append, List.map_cons, List.nodup_append, List.nodup_cons]
    at hdistinct
  exact hdistinct.2.1.1 (hname ▸ List.mem_map_of_mem he')

end Checked

/-! ## Numbers of cells -/

private theorem filterMap_number?_nullPadded (t : Table) (c : Column) :
    (t.nullPadded c).filterMap Cell.number? = c.rawNumbers := by
  have hnull : (List.replicate (t.rowCount - c.cells.length)
      Cell.null).filterMap Cell.number? = [] := by
    rw [List.filterMap_replicate_of_none rfl]
  rw [nullPadded, List.filterMap_append, hnull, List.append_nil]
  exact List.filterMap_congr fun cell _ => cell.number?_eq_bind_text?

private theorem exists_typed_column {t : Table}
    {classes checked : List ColumnClass}
    {name : String} (hnames : t.columnNames.Nodup)
    (hvalid : t.check classes = .ok checked)
    (hnumeric : ∃ e ∈ classes, e.name = name ∧
      e.dtype ∈ [.number, .percent, .currency]) :
    ∃ c ∈ t.columns, c.name = name ∧
      ∃ typed, (t.normalize classes).dataset.column? name = some typed ∧
        KpiFunction.present typed = c.rawNumbers := by
  obtain ⟨e, he, rfl, hdtype⟩ := hnumeric
  obtain ⟨c, hc, hname⟩ := exists_column_of_check hvalid he
  have hclass := classifiedAs_of_check hvalid he
  rw [← hname] at hclass
  have htyped := faithfullyTyped_typedColumn classes hc
  have hvalues := (htyped.stored _ hclass).eq_numbers hdtype
  refine ⟨c, hc, hname, typedColumn t.rowCount (dtypeOf classes c.name) c,
    ?_, ?_⟩
  · rw [column?_normalize, column?_eq_some_iff hnames |>.mpr ⟨hc, hname⟩]
    rfl
  · rw [KpiFunction.present, hvalues, Values.numeric, List.filterMap_map]
    exact filterMap_number?_nullPadded t c

end Table

/-! ## Totals -/

/--
The sum and the count of a column of numbers, and the attainment of two, are
computed from the numbers that the raw cells show.  Cells without a text or a
number in it count nowhere.
-/
theorem Table.totals_of_raw_cells {t : Table}
    {classes checked : List ColumnClass} {a b : String}
    (hnames : t.columnNames.Nodup) (hvalid : t.check classes = .ok checked)
    (ha : ∃ e ∈ classes, e.name = a ∧
      e.dtype ∈ [.number, .percent, .currency])
    (hb : ∃ e ∈ classes, e.name = b ∧
      e.dtype ∈ [.number, .percent, .currency]) :
    ∃ rawA ∈ t.columns, rawA.name = a ∧ ∃ rawB ∈ t.columns, rawB.name = b ∧
      (t.normalize classes).dataset.Gives .sum [a] rawA.rawSum ∧
      (t.normalize classes).dataset.Gives .count [a]
        (Float.ofNat rawA.rawNumbers.length) ∧
      (t.normalize classes).dataset.Gives .attainment [a, b]
        (if rawB.rawSum == 0.0 then 0.0 else rawA.rawSum / rawB.rawSum) := by
  obtain ⟨rawA, hrawA, hnameA, typedA, htypedA, hpresentA⟩ :=
    exists_typed_column hnames hvalid ha
  obtain ⟨rawB, hrawB, hnameB, typedB, htypedB, hpresentB⟩ :=
    exists_typed_column hnames hvalid hb
  refine ⟨rawA, hrawA, hnameA, rawB, hrawB, hnameB, ?_, ?_, ?_⟩
  · apply @Dataset.gives_of_columns _ _ _ [typedA]
    · rfl
    · simp [htypedA]
    · rw [KpiFunction.value?, hpresentA]
      rfl
  · apply @Dataset.gives_of_columns _ _ _ [typedA]
    · rfl
    · simp [htypedA]
    · rw [KpiFunction.value?, hpresentA]
  · apply @Dataset.gives_of_columns _ _ _ [typedA, typedB]
    · rfl
    · simp [htypedA, htypedB]
    · rw [KpiFunction.value?, hpresentA, hpresentB]
      rfl

theorem Table.totals_of_raw_cells_receita :
    let t : Table := ⟨[
      ⟨"receita", [.text "R$ 1.000,00", .text "—", .number 250.5]⟩,
      ⟨"meta", [.text "50%", .bool true]⟩]⟩
    let classes : List ColumnClass := [
      { name := "meta", dtype := .percent },
      { name := "receita", dtype := .currency, semantic := some "null" }]
    (t.normalize classes).dataset.evaluate "sum(receita)" = .ok 1250.5 ∧
      (t.normalize classes).dataset.evaluate "attainment(receita, meta)" =
        .ok 2501.0 := by
  intro t classes
  have hvalid : t.check classes = .ok (classes.map ColumnClass.cleaned) := by
    rfl
  obtain ⟨rawA, hrawA, hnameA, rawB, hrawB, hnameB, hsum, -, hattainment⟩ :=
    totals_of_raw_cells (a := "receita") (b := "meta") (by decide) hvalid
      ⟨_, List.mem_cons_of_mem _ (List.mem_cons_self ..), rfl, by decide⟩
      ⟨_, List.mem_cons_self .., rfl, by decide⟩
  have hreceita : t.column? "receita" = some rawA :=
    (column?_eq_some_iff (by decide)).mpr ⟨hrawA, hnameA⟩
  have hmeta : t.column? "meta" = some rawB :=
    (column?_eq_some_iff (by decide)).mpr ⟨hrawB, hnameB⟩
  cases hreceita
  cases hmeta
  have hreceitaSum : Column.rawSum ⟨"receita",
      [.text "R$ 1.000,00", .text "—", .number 250.5]⟩ = 1250.5 := by
    decide +kernel
  have hmetaSum : Column.rawSum ⟨"meta", [.text "50%", .bool true]⟩ = 0.5 := by
    decide +kernel
  constructor
  · rw [hsum.parsed "sum(receita)" rfl, hreceitaSum]
  · rw [hattainment.parsed "attainment(receita, meta)" rfl, hreceitaSum,
      hmetaSum]
    decide +kernel

end Chartbook
