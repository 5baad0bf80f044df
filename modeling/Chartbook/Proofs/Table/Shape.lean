import Chartbook.Proofs.Number.Digits
import Chartbook.Proofs.Number.Finite
import Chartbook.Proofs.Table.QuotedImport

/-!
# The shape of imported tables

An imported table is rectangular and holds at least one row, whichever delimiter
it was read with.  Its names are distinct and stand for themselves, and every
cell has the type that its field calls for.
-/

namespace Chartbook

/-! ## Cells of fields -/

namespace Cell

/--
The cells that a field can be: a text is kept only if it is neither blank nor a
word for a missing value nor the literal of a finite number.
-/
def IsField : Cell → Prop
  | null => True
  | bool _ => False
  | number x => x.isFinite = true
  | text s =>
      Text.trimmed s ≠ "" ∧ Text.trimmed s ∉ missingWords ∧
        ∀ x, Number.ofLiteral? (Text.trim s.toList) = some x →
          x.isFinite = false

theorem isField_ofField (field : String) : (ofField field).IsField := by
  rw [ofField]
  split
  · trivial
  · rename_i hpresent
    obtain ⟨hblank, hword⟩ := not_or.mp hpresent
    have hkept (hliteral : ∀ x,
        Number.ofLiteral? (Text.trim field.toList) = some x →
          x.isFinite = false) : (text field).IsField := by
      refine ⟨fun hempty => hblank ?_, hword, hliteral⟩
      simpa [Text.trimmed] using congrArg String.toList hempty
    split
    · rename_i x hx
      obtain ⟨hliteral, -⟩ := Option.filter_eq_some_iff.mp hx
      split
      · rename_i hfinite
        exact hfinite
      · rename_i hinfinite
        refine hkept fun y hy => ?_
        cases hliteral.symm.trans hy
        exact Bool.eq_false_iff.mpr hinfinite
    · rename_i hnone
      refine hkept fun x hx => ?_
      cases hfinite : x.isFinite with
      | false => rfl
      | true =>
          rw [Number.ofPlain?, hx, Option.filter_some,
            if_pos (by rw [Number.isNaN_of_isFinite hfinite]; rfl)] at hnone
          contradiction

end Cell

namespace Table

/-! ## Names -/

private theorem isHeader_trimmed {field : String}
    (h : Text.trimmed field ≠ "") :
    IsHeader (Text.trimmed field) := by
  refine ⟨?_, h⟩
  rw [Text.trimmed, Text.trimmed, String.toList_ofList, Text.trim_trim]

private theorem isHeader_numbered (position : Nat) :
    IsHeader s!"Unnamed: {position}" := by
  have htext : s!"Unnamed: {position}".toList =
      "Unnamed: ".toList ++ Number.digits position := by
    simp [Number.digits, toString, Nat.repr]
  obtain ⟨before, last, hdigits⟩ : ∃ before last,
      Number.digits position = before ++ [last] := by
    rcases List.eq_nil_or_concat (Number.digits position) with h | h
    · exact absurd h (Number.digits_ne_nil position)
    · simpa using h
  have hlast : Text.isBlank last = false := by
    have hmem : last ∈ Number.digits position := by simp [hdigits]
    exact Number.isBlank_of_isDigit (Number.isDigit_of_mem_digits hmem)
  have htrim : Text.trim s!"Unnamed: {position}".toList =
      s!"Unnamed: {position}".toList := by
    rw [htext, hdigits]
    exact @Text.trim_cons_concat 'U' last rfl hlast
      ("nnamed: ".toList ++ before)
  refine ⟨?_, fun hempty => ?_⟩
  · rw [Text.trimmed, htrim, String.ofList_toList]
  · have hnil := congrArg String.toList hempty
    rw [htext] at hnil
    simp at hnil

theorem isHeader_headerName (position : Nat) (field : String) :
    IsHeader (headerName position field) := by
  rw [headerName]
  split
  · exact isHeader_numbered position
  · rename_i h
    exact isHeader_trimmed h

theorem nodup_of_firstRepeated? {seen names : List String}
    (h : firstRepeated? seen names = none) :
    names.Nodup ∧ ∀ name ∈ names, name ∉ seen := by
  induction names generalizing seen with
  | nil => simp
  | cons name names ih =>
      rw [firstRepeated?] at h
      split at h
      · contradiction
      · rename_i hname
        obtain ⟨hdistinct, hnew⟩ := ih h
        refine ⟨List.nodup_cons.mpr ⟨fun hmem => ?_, hdistinct⟩, ?_⟩
        · exact hnew name hmem (List.mem_cons_self ..)
        · refine List.forall_mem_cons.mpr ⟨hname, fun n hn hmem => ?_⟩
          exact hnew n hn (List.mem_cons_of_mem _ hmem)

/-! ## Tables of records -/

/--
The shape of an imported table.  Its columns end in the same row, so no cell is
null for being below the end of a column.
-/
structure WellShaped (t : Table) : Prop where
  columns_ne_nil : t.columns ≠ []
  rowCount_pos : 0 < t.rowCount
  aligned : ∀ c ∈ t.columns, c.cells.length = t.rowCount
  headers : ∀ name ∈ t.columnNames, IsHeader name
  distinct : t.columnNames.Nodup
  fields : ∀ c ∈ t.columns, ∀ cell ∈ c.cells, cell.IsField

private theorem isField_cellAt (fields : List String) (position : Nat) :
    (cellAt fields position).IsField := by
  rw [cellAt]
  split
  · exact Cell.isField_ofField _
  · trivial

private theorem eq_ofRows_of_ofRecords {header : List String}
    {records : List (List String)} {t : Table}
    (h : ofRecords (header :: records) = .ok t) :
    (header.mapIdx headerName).Nodup ∧
      t = ofRows (header.mapIdx headerName) records := by
  rw [ofRecords] at h
  split at h
  · contradiction
  · rename_i hdistinct
    cases h
    simp only [columnAt_eq]
    exact ⟨(nodup_of_firstRepeated? hdistinct).1, rfl⟩

private theorem wellShaped_ofRows {names : List String}
    {rows : List (List String)} (hnames : names ≠ []) (hrows : rows ≠ [])
    (hheaders : ∀ name ∈ names, IsHeader name) (hdistinct : names.Nodup) :
    (ofRows names rows).WellShaped := by
  have hcount := rowCount_ofRows hnames rows
  refine ⟨by simpa [ofRows] using hnames, ?_, fun c hc => ?_, ?_, ?_,
    fun c hc cell hcell => ?_⟩
  · rw [hcount]
    exact List.length_pos_of_ne_nil hrows
  · obtain ⟨i, hi, rfl⟩ := List.mem_mapIdx.mp hc
    rw [hcount]
    exact List.length_map _
  · rwa [columnNames_ofRows]
  · rwa [columnNames_ofRows]
  · obtain ⟨i, hi, rfl⟩ := List.mem_mapIdx.mp hc
    obtain ⟨fields, -, rfl⟩ := List.mem_map.mp hcell
    exact isField_cellAt fields i

private theorem rowCount_ofRows_eq_zero {names : List String}
    {rows : List (List String)} (h : names = [] ∨ rows = []) :
    (ofRows names rows).rowCount = 0 := by
  rcases eq_or_ne names [] with rfl | hnames
  · rfl
  · rw [rowCount_ofRows hnames, h.resolve_left hnames, List.length_nil]

private theorem wellShaped_of_ofRecords {records : List (List String)}
    {t : Table} (h : ofRecords records = .ok t) (hrows : t.rowCount ≠ 0) :
    t.WellShaped := by
  cases records with
  | nil =>
      cases h
      contradiction
  | cons header records =>
      obtain ⟨hdistinct, rfl⟩ := eq_ofRows_of_ofRecords h
      obtain ⟨hnames, hne⟩ := not_or.mp (mt rowCount_ofRows_eq_zero hrows)
      refine wellShaped_ofRows hnames hne (fun name hname => ?_) hdistinct
      obtain ⟨i, hi, rfl⟩ := List.mem_mapIdx.mp hname
      exact isHeader_headerName i _

private theorem exists_records_of_ofContent {content : List Char} {t : Table}
    (h : ofContent content = .ok t) :
    ∃ d ∈ [',', ';'], ofRecords (Csv.records d content) = .ok t := by
  obtain ⟨first, hfirst, h⟩ := bind_eq_ok.mp h
  split at h
  · exact ⟨';', by simp, h⟩
  · cases h
    exact ⟨',', by simp, hfirst⟩

private theorem ofContent_of_ofText {s : String} {t : Table}
    (h : ofText s = .ok t) :
    ofContent (s.toList.dropWhile (· == Char.ofNat 0xFEFF)) = .ok t ∧
      t.rowCount ≠ 0 := by
  obtain ⟨first, hfirst, h⟩ := bind_eq_ok.mp h
  split at h
  · cases h
  · rename_i hrows
    cases h
    exact ⟨hfirst, hrows⟩

/-- Every table that is read from a file has this shape, whatever its bytes. -/
theorem wellShaped_of_ofBytes {bytes : ByteArray} {t : Table}
    (h : ofBytes bytes = .ok t) : t.WellShaped := by
  rw [ofBytes] at h
  split at h
  · obtain ⟨hcontent, hrows⟩ := ofContent_of_ofText h
    obtain ⟨d, -, hrecords⟩ := exists_records_of_ofContent hcontent
    exact wellShaped_of_ofRecords hrecords hrows
  · contradiction

theorem wellShaped_of_ofBytes_semicolon :
    let t : Table := ⟨[⟨"Unnamed: 0", [.number 1, .text " -inf"]⟩,
      ⟨"b", [.text "x,y", .null]⟩, ⟨"Unnamed: 2", [.null, .null]⟩]⟩
    ofBytes ";b;\n1;x,y\n -inf;NA\n".toUTF8 = .ok t ∧ t.WellShaped := by
  intro t
  have hread : ofBytes ";b;\n1;x,y\n -inf;NA\n".toUTF8 = .ok t := by
    rw [ofBytes_toUTF8]
    rfl
  exact ⟨hread, wellShaped_of_ofBytes hread⟩

end Table

end Chartbook
