import Chartbook.Table.Csv
import Chartbook.Proofs.Text.Joined

/-!
# Quoted records

Records written with every field between quotes are read back as they were,
whatever the fields hold.  Read with a delimiter that is not theirs, records run
together up to the end of a line.
-/

namespace Chartbook.Csv

def escapeQuote (c : Char) : List Char := if c = '"' then ['"', '"'] else [c]

def quoteField (field : String) : List Char :=
  '"' :: (field.toList.flatMap escapeQuote ++ ['"'])

def joinFields (delimiter : Char) (fields : List String) : List Char :=
  [delimiter].intercalate (fields.map quoteField)

def writeRecord (delimiter : Char) (fields : List String) : List Char :=
  joinFields delimiter fields ++ ['\n']

def write (delimiter : Char) (records : List (List String)) : List Char :=
  records.flatMap (writeRecord delimiter)

def file (marks : Nat) (delimiter : Char) (records : List (List String)) :
    ByteArray :=
  (String.ofList (List.replicate marks (Char.ofNat 0xFEFF) ++
    write delimiter records)).toUTF8

/-- A character that can stand between quoted fields and means nothing else. -/
structure Separates (delimiter : Char) : Prop where
  ne_quote : delimiter ≠ '"'
  not_terminator : isTerminator delimiter = false

theorem separates_comma : Separates ',' := ⟨by decide, by decide⟩

theorem separates_semicolon : Separates ';' := ⟨by decide, by decide⟩

theorem Separates.ne_lineFeed {delimiter : Char} (h : Separates delimiter) :
    '\n' ≠ delimiter := by
  rintro rfl
  have hterminator := h.not_terminator
  contradiction

/-! ## Reading a field -/

section Field

variable (d : Char) (s : State)

private theorem foldl_step_escapeQuote (hs : s.mode = .quoted) (c : Char) :
    (escapeQuote c).foldl (step d) s = { s with chars := c :: s.chars } := by
  obtain ⟨mode, chars, fields, records⟩ := s
  cases hs
  by_cases hc : c = '"'
  · simp [escapeQuote, hc, step, State.add]
  · simp [escapeQuote, hc, step, State.add]

private theorem foldl_step_escaped (hs : s.mode = .quoted) (cs : List Char) :
    (cs.flatMap escapeQuote).foldl (step d) s =
      { s with chars := cs.reverse ++ s.chars } := by
  induction cs generalizing s with
  | nil => rfl
  | cons c cs ih =>
      rw [List.flatMap_cons, List.foldl_append, foldl_step_escapeQuote d s hs,
        ih { s with chars := c :: s.chars } hs]
      simp

def State.AtField (s : State) : Prop :=
  (s.mode = .recordStart ∨ s.mode = .fieldStart) ∧ s.chars = []

theorem foldl_step_quoteField (hs : s.AtField) (field : String) :
    (quoteField field).foldl (step d) s =
      { s with mode := .quote, chars := field.toList.reverse } := by
  obtain ⟨hmode, hchars⟩ := hs
  have hopen : step d s '"' = { s with mode := .quoted } := by
    rcases hmode with h | h <;> simp [step, h, isTerminator, stepFieldStart]
  rw [quoteField, List.foldl_cons, hopen, List.foldl_append,
    foldl_step_escaped d _ rfl, hchars]
  simp [step]

end Field

/-! ## Reading records -/

section Records

variable {d : Char} (hd : Separates d)
include hd

private theorem step_delimiter_of_quote {s : State} (hs : s.mode = .quote) :
    step d s d = s.endField := by
  simp [step, hs, hd.ne_quote, stepOpen]

private theorem step_lineFeed_of_quote {s : State} (hs : s.mode = .quote) :
    step d s '\n' = s.endRecord := by
  simp [step, hs, hd.ne_lineFeed, stepOpen, isTerminator]

private theorem foldl_step_writeRecord {fields : List String}
    (hne : fields ≠ []) {s : State} (hs : s.AtField) :
    (writeRecord d fields).foldl (step d) s =
      { records := (s.fields.reverse ++ fields) :: s.records } := by
  induction fields generalizing s with
  | nil => contradiction
  | cons field rest ih =>
      cases rest with
      | nil =>
          have hfield := foldl_step_quoteField d s hs field
          simp only [writeRecord, joinFields, List.map_cons, List.map_nil,
            List.intercalate_singleton, List.foldl_append, hfield,
            List.foldl_cons, List.foldl_nil]
          rw [step_lineFeed_of_quote hd rfl]
          simp [State.endRecord]
      | cons second rest =>
          have hfield := foldl_step_quoteField d s hs field
          have hsplit : writeRecord d (field :: second :: rest) =
              quoteField field ++ d :: writeRecord d (second :: rest) := by
            simp [writeRecord, joinFields]
          rw [hsplit, List.foldl_append, hfield, List.foldl_cons,
            step_delimiter_of_quote hd rfl, ih (by simp) ⟨.inr rfl, rfl⟩]
          simp [State.endField]

private theorem foldl_step_write {rows : List (List String)}
    (hne : ∀ fields ∈ rows, fields ≠ []) (done : List (List String)) :
    (write d rows).foldl (step d) { records := done } =
      { records := rows.reverse ++ done } := by
  induction rows generalizing done with
  | nil => rfl
  | cons fields rows ih =>
      rw [write, List.flatMap_cons, List.foldl_append,
        foldl_step_writeRecord hd (hne fields (by simp)) ⟨.inl rfl, rfl⟩]
      have hrest := ih (fun f hf => hne f (List.mem_cons_of_mem _ hf))
        (fields :: done)
      rw [write] at hrest
      simpa using hrest

theorem records_write {rows : List (List String)}
    (hne : ∀ fields ∈ rows, fields ≠ []) :
    Csv.records d (write d rows) = rows := by
  rw [Csv.records, foldl_step_write hd hne []]
  simp [State.finish]

end Records

/-! ## Reading with another delimiter -/

theorem write_of_single (d d' : Char) {rows : List (List String)}
    (h : ∀ fields ∈ rows, fields.length = 1) :
    write d rows = write d' rows := by
  induction rows with
  | nil => rfl
  | cons fields rows ih =>
      obtain ⟨field, rfl⟩ := List.length_eq_one_iff.mp (h fields (by simp))
      have hrest := ih fun f hf => h f (List.mem_cons_of_mem _ hf)
      rw [write, write] at hrest ⊢
      rw [List.flatMap_cons, List.flatMap_cons, hrest]
      rfl

private theorem step_records (d : Char) (s : State) (c : Char) :
    (step d s c).records = s.records ∨
      ∃ fields, (step d s c).records = fields :: s.records := by
  have hopen : (stepOpen d s c).records = s.records ∨
      ∃ fields, (stepOpen d s c).records = fields :: s.records := by
    rw [stepOpen]
    split
    · exact .inl rfl
    · split
      · exact .inr ⟨_, rfl⟩
      · exact .inl rfl
  have hstart : (stepFieldStart d s c).records = s.records ∨
      ∃ fields, (stepFieldStart d s c).records = fields :: s.records := by
    rw [stepFieldStart]
    split
    · exact .inl rfl
    · exact hopen
  rw [step]
  split
  · split
    · exact .inl rfl
    · exact hstart
  · exact hstart
  · exact hopen
  · split <;> exact .inl rfl
  · split
    · exact .inl rfl
    · exact hopen

private theorem exists_finish_eq (d : Char) (cs : List Char) (s : State) :
    ∃ more, (cs.foldl (step d) s).finish = s.records.reverse ++ more := by
  induction cs generalizing s with
  | nil =>
      rw [List.foldl_nil, State.finish]
      split
      · exact ⟨[], by simp⟩
      · exact ⟨[(String.ofList s.chars.reverse :: s.fields).reverse],
          by simp [State.endRecord]⟩
  | cons c cs ih =>
      obtain ⟨more, hmore⟩ := ih (step d s c)
      rw [List.foldl_cons, hmore]
      rcases step_records d s c with h | ⟨fields, h⟩
      · exact ⟨more, by rw [h]⟩
      · exact ⟨fields :: more, by simp [h]⟩

private theorem exists_finish_endRecord (d : Char) (cs : List Char) {s : State}
    (hfields : s.fields = []) (hrecords : s.records = []) :
    ∃ more, (cs.foldl (step d) s.endRecord).finish =
      [String.ofList s.chars.reverse] :: more := by
  obtain ⟨more, hmore⟩ := exists_finish_eq d cs s.endRecord
  refine ⟨more, ?_⟩
  rw [hmore]
  simp [State.endRecord, hfields, hrecords]

private theorem exists_finish_of_line {d : Char} (hd : Separates d)
    {line : List Char} (hline : d ∉ line) (rest : List Char) {s : State}
    (hmode : s.mode = .plain) (hfields : s.fields = [])
    (hrecords : s.records = []) {c : Char} (hc : c ∈ s.chars) :
    ∃ field more,
      ((line ++ '\n' :: rest).foldl (step d) s).finish = [field] :: more ∧
        c ∈ field.toList := by
  have hfield : c ∈ (String.ofList s.chars.reverse).toList := by
    simpa using hc
  induction line generalizing s with
  | nil =>
      have hstep : step d s '\n' = s.endRecord := by
        simp [step, hmode, stepOpen, hd.ne_lineFeed, isTerminator]
      obtain ⟨more, hmore⟩ := exists_finish_endRecord d rest hfields hrecords
      refine ⟨_, more, ?_, hfield⟩
      rw [List.nil_append, List.foldl_cons, hstep, hmore]
  | cons x line ih =>
      obtain ⟨hx, hline⟩ : x ≠ d ∧ d ∉ line := by
        simpa [eq_comm] using hline
      by_cases hterminator : isTerminator x = true
      · have hstep : step d s x = s.endRecord := by
          simp [step, hmode, stepOpen, hx, hterminator]
        obtain ⟨more, hmore⟩ := exists_finish_endRecord d
          (line ++ '\n' :: rest) hfields hrecords
        refine ⟨_, more, ?_, hfield⟩
        rw [List.cons_append, List.foldl_cons, hstep, hmore]
      · have hstep : step d s x = s.add .plain x := by
          simp [step, hmode, stepOpen, hx, hterminator]
        have hadded : c ∈ (s.add .plain x).chars := List.mem_cons_of_mem _ hc
        rw [List.cons_append, List.foldl_cons, hstep]
        exact ih hline rfl hfields hrecords hadded (by simpa using hadded)

private theorem not_mem_quoteField {c : Char} (hquote : c ≠ '"')
    {field : String} (h : c ∉ field.toList) : c ∉ quoteField field := by
  simp only [quoteField, List.mem_cons, List.mem_append, List.mem_flatMap,
    List.not_mem_nil, or_false, hquote, false_or]
  rintro ⟨x, hx, hcx⟩
  rw [escapeQuote] at hcx
  split at hcx
  · simp [hquote] at hcx
  · obtain rfl := List.mem_singleton.mp hcx
    exact h hx

private theorem not_mem_joinFields {d c : Char} (hd : c ≠ d) (hquote : c ≠ '"')
    {fields : List String} (h : ∀ f ∈ fields, c ∉ f.toList) :
    c ∉ joinFields d fields := by
  refine (Text.not_mem_intercalate_iff hd).mpr fun text htext => ?_
  obtain ⟨f, hf, rfl⟩ := List.mem_map.mp htext
  exact not_mem_quoteField hquote (h f hf)

theorem exists_records_write {d other : Char} (hd : Separates d)
    (hother : Separates other) (hne : other ≠ d) {first second : String}
    {rest : List String} (h : ∀ f ∈ second :: rest, other ∉ f.toList)
    (rows : List (List String)) :
    ∃ field more,
      Csv.records other (write d ((first :: second :: rest) :: rows)) =
        [field] :: more ∧ d ∈ field.toList := by
  have hline : other ∉ joinFields d (second :: rest) :=
    not_mem_joinFields hne hother.ne_quote h
  have hsplit : write d ((first :: second :: rest) :: rows) =
      quoteField first ++ (d :: (joinFields d (second :: rest) ++
        '\n' :: write d rows)) := by
    simp [write, writeRecord, joinFields]
  have hfirst := foldl_step_quoteField other {} ⟨.inl rfl, rfl⟩ first
  have hstep (s : State) (hs : s.mode = .quote) :
      step other s d = s.add .plain d := by
    simp [step, hs, hd.ne_quote, stepOpen, hne.symm, hd.not_terminator]
  rw [Csv.records, hsplit, List.foldl_append, hfirst, List.foldl_cons,
    hstep _ rfl]
  exact exists_finish_of_line hother hline _ rfl rfl rfl
    (List.mem_cons_self ..)

end Chartbook.Csv
