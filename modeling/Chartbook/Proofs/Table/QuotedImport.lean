import Chartbook.Table.Import
import Chartbook.Proofs.Except
import Chartbook.Proofs.Table.QuotedRecords
import Chartbook.Proofs.Text.Blank

/-!
# Importing quoted tables

A table that was written with every field between quotes is imported with the
names and cells that were written, whichever of the two delimiters stands
between them.  One name is no sign of a semicolon, so below it the rows of such
a table must hold single fields.
-/

namespace Chartbook.Table

/-! ## Names -/

theorem firstRepeated?_eq_none {seen names : List String}
    (hnames : names.Nodup) (hseen : ∀ name ∈ names, name ∉ seen) :
    firstRepeated? seen names = none := by
  induction names generalizing seen with
  | nil => rfl
  | cons name names ih =>
      obtain ⟨hname, hnames⟩ := List.nodup_cons.mp hnames
      rw [firstRepeated?, if_neg (hseen name (by simp))]
      refine ih hnames fun n hn hmem => ?_
      rcases List.mem_cons.mp hmem with rfl | hmem
      · exact hname hn
      · exact hseen n (List.mem_cons_of_mem _ hn) hmem

def IsHeader (name : String) : Prop := Text.trimmed name = name ∧ name ≠ ""

instance (name : String) : Decidable (IsHeader name) :=
  inferInstanceAs (Decidable (_ ∧ _))

private theorem headerName_eq_self {name : String} (h : IsHeader name)
    (position : Nat) : headerName position name = name := by
  simp only [headerName, h.1, h.2, if_false]

theorem mapIdx_headerName {names : List String}
    (h : ∀ name ∈ names, IsHeader name) : names.mapIdx headerName = names := by
  refine List.ext_getElem (by simp) fun i hi hi' => ?_
  rw [List.getElem_mapIdx]
  exact headerName_eq_self (h _ (List.getElem_mem hi')) i

def cellAt (fields : List String) (position : Nat) : Cell :=
  match fields[position]? with
  | some field => Cell.ofField field
  | none => .null

def ofRows (names : List String) (rows : List (List String)) : Table :=
  ⟨names.mapIdx fun i name => ⟨name, rows.map fun fields => cellAt fields i⟩⟩

theorem columnAt_eq (records : List (List String)) (position : Nat)
    (name : String) : columnAt records position name =
      ⟨name, records.map fun fields => cellAt fields position⟩ := by
  have hcell (fields : List String) :
      (fields[position]?.map Cell.ofField).getD .null =
        cellAt fields position := by
    rw [cellAt]
    cases fields[position]? <;> rfl
  simp only [columnAt, hcell]

@[simp] theorem columnNames_ofRows (names : List String)
    (rows : List (List String)) : (ofRows names rows).columnNames = names := by
  refine List.ext_getElem (by simp [ofRows, columnNames]) fun i hi hi' => ?_
  simp [ofRows, columnNames]

theorem ofRecords_eq_ofRows {names : List String}
    (hnames : ∀ name ∈ names, IsHeader name) (hdistinct : names.Nodup)
    (rows : List (List String)) :
    ofRecords (names :: rows) = .ok (ofRows names rows) := by
  rw [ofRecords]
  simp only [mapIdx_headerName hnames, columnAt_eq,
    firstRepeated?_eq_none hdistinct fun _ _ => List.not_mem_nil]
  rfl

private theorem ofRecords_single (field : String)
    (records : List (List String)) :
    ofRecords ([field] :: records) =
      .ok ⟨[columnAt records 0 (headerName 0 field)]⟩ := rfl

theorem mem_headerName {c : Char} (hblank : Text.isBlank c = false)
    {field : String} (h : c ∈ field.toList) (position : Nat) :
    c ∈ (headerName position field).toList := by
  have hmem : c ∈ (Text.trimmed field).toList := by
    rw [Text.trimmed, String.toList_ofList]
    exact Text.mem_trim hblank h
  have hne : Text.trimmed field ≠ "" := by
    intro hempty
    simp [hempty] at hmem
  simp only [headerName, hne, if_false]
  exact hmem

/-! ## The choice of the delimiter -/

theorem ofContent_of_comma {content : List Char} {t : Table}
    (h : ofRecords (Csv.records ',' content) = .ok t)
    (ht : t.wantsSemicolon = false) : ofContent content = .ok t := by
  rw [ofContent, h]
  simp only [bind, Except.bind, ht]
  rfl

theorem ofContent_of_semicolon {content : List Char} {field : String}
    {records : List (List String)}
    (h : Csv.records ',' content = [field] :: records)
    (hfield : ';' ∈ field.toList) :
    ofContent content = ofRecords (Csv.records ';' content) := by
  have hname : ';' ∈ (headerName 0 field).toList :=
    mem_headerName (by decide) hfield 0
  have hwants : wantsSemicolon
      ⟨[columnAt records 0 (headerName 0 field)]⟩ = true := by
    simpa [wantsSemicolon, columnAt] using hname
  rw [ofContent, h, ofRecords_single]
  simp only [bind, Except.bind, hwants, if_true]

private theorem wantsSemicolon_ofRows {names : List String}
    (h : ∀ name, names = [name] → ';' ∉ name.toList)
    (rows : List (List String)) :
    (ofRows names rows).wantsSemicolon = false := by
  match names with
  | [] => rfl
  | [name] => simpa [ofRows, wantsSemicolon] using h name rfl
  | _ :: _ :: _ => simp [ofRows, wantsSemicolon, List.mapIdx_cons]

/-! ## Written tables -/

/--
A table whose delimiter is to be found again.  A semicolon is looked for in the
one name that is left when commas are tried first.
-/
structure Quotable (d : Char) (names : List String)
    (rows : List (List String)) : Prop where
  delimiter : d = ',' ∨ d = ';'
  headers : ∀ name ∈ names, IsHeader name
  distinct : names.Nodup
  rows_ne_nil : rows ≠ []
  fields_ne_nil : ∀ fields ∈ rows, fields ≠ []
  no_comma : d = ';' → ∀ name ∈ names, ',' ∉ name.toList
  no_semicolon : ∀ name, names = [name] → ';' ∉ name.toList

section Quotable

variable {d : Char} {names : List String} {rows : List (List String)}
  (h : Quotable d names rows) (hne : names ≠ [])
include h hne

theorem Quotable.records_write {d' : Char} (hd' : Csv.Separates d') :
    Csv.records d' (Csv.write d' (names :: rows)) = names :: rows :=
  Csv.records_write hd' (by simpa using ⟨hne, h.fields_ne_nil⟩)

theorem Quotable.ofContent_comma :
    ofContent (Csv.write ',' (names :: rows)) = .ok (ofRows names rows) := by
  refine ofContent_of_comma ?_ (wantsSemicolon_ofRows h.no_semicolon rows)
  rw [h.records_write hne Csv.separates_comma,
    ofRecords_eq_ofRows h.headers h.distinct]

theorem Quotable.ofContent_write
    (hsingle : d = ';' → names.length = 1 →
      ∀ fields ∈ rows, fields.length = 1) :
    ofContent (Csv.write d (names :: rows)) = .ok (ofRows names rows) := by
  rcases h.delimiter with rfl | rfl
  · exact h.ofContent_comma hne
  · match names with
    | [] => contradiction
    | [name] =>
        rw [Csv.write_of_single ';' ',' (by simpa using hsingle rfl rfl),
          h.ofContent_comma hne]
    | first :: second :: rest =>
        obtain ⟨field, more, hcommas, hfield⟩ := Csv.exists_records_write
          Csv.separates_semicolon Csv.separates_comma (by decide)
          (fun f hf => h.no_comma rfl f (List.mem_cons_of_mem _ hf)) rows
        rw [ofContent_of_semicolon hcommas hfield,
          h.records_write hne Csv.separates_semicolon,
          ofRecords_eq_ofRows h.headers h.distinct]

end Quotable

private theorem rowCount_of_uniform {t : Table} {n : Nat}
    (h : ∀ c ∈ t.columns, c.cells.length = n) (hne : t.columns ≠ []) :
    t.rowCount = n := by
  obtain ⟨columns⟩ := t
  rw [rowCount]
  induction columns with
  | nil => contradiction
  | cons c columns ih =>
      rw [List.foldr_cons, h c (by simp)]
      cases columns with
      | nil => simp
      | cons c' columns =>
          rw [ih (fun c hc => h c (List.mem_cons_of_mem _ hc)) (by simp),
            Nat.max_self]

theorem rowCount_ofRows {names : List String} (h : names ≠ [])
    (rows : List (List String)) :
    (ofRows names rows).rowCount = rows.length := by
  refine rowCount_of_uniform (fun c hc => ?_) (by simpa [ofRows] using h)
  obtain ⟨i, hi, rfl⟩ := List.mem_mapIdx.mp hc
  simp

theorem ofBytes_toUTF8 (s : String) : ofBytes s.toUTF8 = ofText s := by
  rw [ofBytes, String.fromUTF8?, String.toUTF8_eq_toByteArray,
    dif_pos s.isValidUTF8]
  rfl

private theorem ofText_append_marks (marks : Nat) {content : List Char}
    {t : Table} (hcontent : content.head? ≠ some (Char.ofNat 0xFEFF))
    (h : ofContent content = .ok t) (hrows : t.rowCount ≠ 0) :
    ofText (String.ofList
      (List.replicate marks (Char.ofNat 0xFEFF) ++ content)) = .ok t := by
  have hmarks : ∀ c ∈ List.replicate marks (Char.ofNat 0xFEFF),
      (c == Char.ofNat 0xFEFF) = true := by
    simp +contextual [List.mem_replicate]
  have hdrop : content.dropWhile (· == Char.ofNat 0xFEFF) = content :=
    List.dropWhile_beq_eq_self_of_head?_ne hcontent
  rw [ofText, String.toList_ofList, List.dropWhile_append_of_pos hmarks, hdrop,
    h]
  simp only [bind, Except.bind, hrows, if_false]
  rfl

private theorem head?_write {names : List String} (hne : names ≠ []) (d : Char)
    (rows : List (List String)) :
    (Csv.write d (names :: rows)).head? = some '"' := by
  obtain ⟨name, names, rfl⟩ := List.exists_cons_of_ne_nil hne
  rw [Csv.write, List.flatMap_cons, Csv.writeRecord, Csv.joinFields,
    List.map_cons, Csv.quoteField, List.intercalate_cons_cons_left]
  rfl

/--
A table with every name and field between quotes is read as it was written, with
byte-order marks before it or without: the names in their order, and below each
of them the cells of the fields at its place.  There must be a name, and below a
single one in a table with semicolons no row may have a second field.
-/
theorem ofBytes_write_quoted {d : Char} {names : List String}
    {rows : List (List String)} (marks : Nat) (h : Quotable d names rows)
    (hne : names ≠ [])
    (hsingle : d = ';' → names.length = 1 →
      ∀ fields ∈ rows, fields.length = 1) :
    ofBytes (Csv.file marks d (names :: rows)) = .ok (ofRows names rows) ∧
      (ofRows names rows).columnNames = names := by
  refine ⟨?_, columnNames_ofRows names rows⟩
  rw [Csv.file, ofBytes_toUTF8]
  refine ofText_append_marks marks ?_ (h.ofContent_write hne hsingle) ?_
  · rw [head?_write hne]
    decide
  · rw [rowCount_ofRows hne]
    exact fun hlength => h.rows_ne_nil (List.length_eq_zero_iff.mp hlength)

theorem ofBytes_write_quoted_semicolon :
    ofBytes (Csv.file 1 ';'
        [["a \"b\"", "c"], ["1;5", "x,\ny", "z"], ["2"]]) =
      .ok ⟨[⟨"a \"b\"", [.text "1;5", .number 2]⟩,
        ⟨"c", [.text "x,\ny", .null]⟩]⟩ := by
  have hquotable : Quotable ';' ["a \"b\"", "c"]
      [["1;5", "x,\ny", "z"], ["2"]] :=
    ⟨by decide, by decide, by decide, by decide, by decide, by decide,
      by simp⟩
  exact (ofBytes_write_quoted 1 hquotable (by decide) (by decide)).1

theorem quoted_table_misread :
    (Quotable ';' ["a"] [["x", "y"]] ∧
      ofBytes (Csv.file 0 ';' [["a"], ["x", "y"]]) =
        .ok ⟨[⟨"a", [.text "x;\"y\""]⟩]⟩ ∧
      ofBytes (Csv.file 0 ';' [["a"], ["x", "y"]]) ≠
        .ok (ofRows ["a"] [["x", "y"]])) ∧
    (Quotable ',' [] [["x"], ["y"]] ∧
      ofBytes (Csv.file 0 ',' [[], ["x"], ["y"]]) =
        .ok ⟨[⟨"x", [.text "y"]⟩]⟩ ∧
      ofBytes (Csv.file 0 ',' [[], ["x"], ["y"]]) ≠
        .ok (ofRows [] [["x"], ["y"]])) := by
  have hsingle : ofBytes (Csv.file 0 ';' [["a"], ["x", "y"]]) =
      .ok ⟨[⟨"a", [.text "x;\"y\""]⟩]⟩ := by
    rw [Csv.file, ofBytes_toUTF8]
    rfl
  have hnone : ofBytes (Csv.file 0 ',' [[], ["x"], ["y"]]) =
      .ok ⟨[⟨"x", [.text "y"]⟩]⟩ := by
    rw [Csv.file, ofBytes_toUTF8]
    rfl
  refine ⟨⟨⟨.inr rfl, by decide, by decide, by simp, by simp, by decide,
    by simp⟩, hsingle, ?_⟩, ⟨.inl rfl, by simp, by simp, by simp, by simp,
    by simp, by simp⟩, hnone, ?_⟩
  · rw [hsingle]
    decide
  · rw [hnone]
    decide

end Chartbook.Table
