import Chartbook.Classification
import Chartbook.Proofs.Except
import Chartbook.Proofs.Text.Blank
import Mathlib.Data.List.Forall2
import Mathlib.Data.List.Nodup

/-!
# Checked classifications

A classification is accepted if it names columns of the table, each once.  The
check then removes null words and nothing else, so it accepts its own output
unchanged.  Otherwise the first column that is unknown or named before is
reported, whatever comes after it.
-/

namespace Chartbook

/-! ## Null words -/

def IsNullWord (s : String) : Prop :=
  ∃ before word after, Text.AllBlank before ∧ Text.AllBlank after ∧
    Text.asciiLower word = ['n', 'u', 'l', 'l'] ∧
    s.toList = before ++ word ++ after

namespace ColumnClass

private theorem not_blank_of_nullWord {word : List Char}
    (h : Text.asciiLower word = ['n', 'u', 'l', 'l']) :
    ∀ c ∈ word, Text.isBlank c = false := by
  intro c hc
  have hletter : c.toLower ∈ ['n', 'u', 'l', 'l'] :=
    h ▸ List.mem_map_of_mem hc
  refine Bool.eq_false_iff.mpr fun hblank => ?_
  rw [Text.toLower_of_isBlank hblank] at hletter
  have hvisible : (['n', 'u', 'l', 'l'].all fun c => !Text.isBlank c) =
      true := by
    decide
  have hc := List.all_eq_true.mp hvisible c hletter
  simp [hblank] at hc

theorem isNullWord_iff {s : String} : isNullWord s = true ↔ IsNullWord s := by
  rw [isNullWord, beq_iff_eq]
  constructor
  · intro h
    obtain ⟨before, after, hbefore, hafter, hs⟩ :=
      Text.exists_eq_append_trim s.toList
    exact ⟨before, _, after, hbefore, hafter, h, hs⟩
  · rintro ⟨before, word, after, hbefore, hafter, hword, hs⟩
    rw [hs, Text.trim_append hbefore hafter,
      Text.trim_eq_self (not_blank_of_nullWord hword), hword]

inductive Clears : Option String → Option String → Prop where
  | absent : Clears none none
  | nullWord {s : String} (h : IsNullWord s) : Clears (some s) none
  | kept {s : String} (h : ¬IsNullWord s) : Clears (some s) (some s)

private theorem clears_withoutNullWord (s : Option String) :
    Clears s (withoutNullWord s) := by
  cases s with
  | none => exact .absent
  | some s =>
      by_cases h : IsNullWord s
      · rw [withoutNullWord, Option.filter_some, isNullWord_iff.mpr h]
        exact .nullWord h
      · rw [withoutNullWord, Option.filter_some,
          Bool.eq_false_iff.mpr (mt isNullWord_iff.mp h)]
        exact .kept h

structure ClearsTo (c c' : ColumnClass) : Prop where
  name : c'.name = c.name
  dtype : c'.dtype = c.dtype
  semantic : Clears c.semantic c'.semantic
  format : Clears c.format c'.format

theorem clearsTo_cleaned (c : ColumnClass) : c.ClearsTo c.cleaned :=
  ⟨rfl, rfl, clears_withoutNullWord _, clears_withoutNullWord _⟩

@[simp] theorem cleaned_name (c : ColumnClass) : c.cleaned.name = c.name := rfl

@[simp] theorem cleaned_cleaned (c : ColumnClass) :
    c.cleaned.cleaned = c.cleaned := by
  simp [cleaned, withoutNullWord]

end ColumnClass

namespace Table

variable {t : Table} {columns classes : List ColumnClass} {c : ColumnClass}

/-! ## Accepted classifications -/

/-- The columns are columns of the table, each named once. -/
structure Accepts (t : Table) (columns : List ColumnClass) : Prop where
  known : ∀ c ∈ columns, c.name ∈ t.columnNames
  distinct : (columns.map (·.name)).Nodup

theorem accepts_nil (t : Table) : t.Accepts [] := ⟨nofun, List.nodup_nil⟩

theorem accepts_concat : t.Accepts (columns ++ [c]) ↔
    t.Accepts columns ∧ c.name ∈ t.columnNames ∧
      c.name ∉ columns.map (·.name) := by
  have hdistinct : ((columns ++ [c]).map (·.name)).Nodup ↔
      c.name ∉ columns.map (·.name) ∧ (columns.map (·.name)).Nodup := by
    rw [List.map_append, List.nodup_append_comm]
    exact List.nodup_cons
  constructor
  · intro h
    obtain ⟨hnew, hcolumns⟩ := hdistinct.mp h.distinct
    exact ⟨⟨fun e he => h.known e (List.mem_append_left _ he), hcolumns⟩,
      h.known c (by simp), hnew⟩
  · rintro ⟨⟨hknown, hcolumns⟩, hc, hnew⟩
    refine ⟨?_, hdistinct.mpr ⟨hnew, hcolumns⟩⟩
    simpa [or_imp, forall_and] using ⟨hknown, hc⟩

theorem Accepts.map_cleaned (h : t.Accepts columns) :
    t.Accepts (columns.map ColumnClass.cleaned) := by
  refine ⟨?_, ?_⟩
  · simpa using h.known
  · simpa [Function.comp_def] using h.distinct

theorem isNone_column?_iff {name : String} :
    (t.column? name).isNone = true ↔ name ∉ t.columnNames := by
  simp [column?, columnNames]

theorem check_append (h : t.Accepts columns) (rest : List ColumnClass) :
    t.check (columns ++ rest) =
      (t.checkFrom (columns.map (·.name)).reverse rest).map
        (columns.map ColumnClass.cleaned ++ ·) := by
  induction columns using List.reverseRecOn generalizing rest with
  | nil =>
      rw [check]
      cases hrest : t.checkFrom [] rest <;> simp [hrest, Except.map]
  | append_singleton columns c ih =>
      obtain ⟨hcolumns, hknown, hnew⟩ := accepts_concat.mp h
      have hsome : ¬(t.column? c.name).isNone = true := by
        rw [isNone_column?_iff]
        exact not_not_intro hknown
      have hunseen : c.name ∉ (columns.map (·.name)).reverse := by
        rwa [List.mem_reverse]
      rw [List.append_assoc, List.singleton_append, ih hcolumns, checkFrom,
        if_neg hsome, if_neg hunseen]
      cases hrest : t.checkFrom (c.name :: (columns.map (·.name)).reverse)
        rest <;> simp [hrest, Except.map]

theorem check_of_accepts (h : t.Accepts columns) :
    t.check columns = .ok (columns.map ColumnClass.cleaned) := by
  have hall := check_append h []
  rw [List.append_nil] at hall
  rw [hall, checkFrom, Except.map, List.append_nil]

/-! ## The first fault -/

/--
What is wrong with the first column that is unknown or named before.  A column
that is both is unknown.
-/
inductive FirstFault (t : Table) :
    List ColumnClass → ClassificationFault → Prop where
  | noColumn {before after : List ColumnClass} {c : ColumnClass}
      (hbefore : t.Accepts before) (h : c.name ∉ t.columnNames) :
      FirstFault t (before ++ c :: after) (.noColumn c.name)
  | repeated {before after : List ColumnClass} {c : ColumnClass}
      (hbefore : t.Accepts before) (hknown : c.name ∈ t.columnNames)
      (h : c.name ∈ before.map (·.name)) :
      FirstFault t (before ++ c :: after) (.repeated c.name)

theorem FirstFault.append {fault : ClassificationFault}
    (h : t.FirstFault columns fault) (rest : List ColumnClass) :
    t.FirstFault (columns ++ rest) fault := by
  cases h with
  | noColumn hbefore h =>
      rw [List.append_assoc, List.cons_append]
      exact .noColumn hbefore h
  | repeated hbefore hknown h =>
      rw [List.append_assoc, List.cons_append]
      exact .repeated hbefore hknown h

theorem accepts_or_firstFault (t : Table) (columns : List ColumnClass) :
    t.Accepts columns ∨ ∃ fault, t.FirstFault columns fault := by
  induction columns using List.reverseRecOn with
  | nil => exact .inl t.accepts_nil
  | append_singleton columns c ih =>
      rcases ih with haccepts | ⟨fault, hfault⟩
      · by_cases hknown : c.name ∈ t.columnNames
        · by_cases hnew : c.name ∈ columns.map (·.name)
          · exact .inr ⟨_, .repeated haccepts hknown hnew⟩
          · exact .inl (accepts_concat.mpr ⟨haccepts, hknown, hnew⟩)
        · exact .inr ⟨_, .noColumn haccepts hknown⟩
      · exact .inr ⟨fault, hfault.append [c]⟩

theorem check_of_firstFault {fault : ClassificationFault}
    (h : t.FirstFault columns fault) :
    t.check columns = .error fault.error := by
  cases h with
  | noColumn hbefore h =>
      rw [check_append hbefore, checkFrom, if_pos (isNone_column?_iff.mpr h)]
      rfl
  | repeated hbefore hknown h =>
      have hsome := mt isNone_column?_iff.mp (not_not_intro hknown)
      rw [check_append hbefore, checkFrom, if_neg hsome,
        if_pos (List.mem_reverse.mpr h)]
      rfl

theorem check_eq_ok_iff : t.check columns = .ok classes ↔
    t.Accepts columns ∧ classes = columns.map ColumnClass.cleaned := by
  constructor
  · intro h
    rcases t.accepts_or_firstFault columns with haccepts | ⟨fault, hfault⟩
    · rw [check_of_accepts haccepts] at h
      exact ⟨haccepts, (Except.ok.inj h).symm⟩
    · rw [check_of_firstFault hfault] at h
      contradiction
  · rintro ⟨haccepts, rfl⟩
    exact check_of_accepts haccepts

theorem check_eq_error_iff {e : Error} : t.check columns = .error e ↔
    ∃ fault, t.FirstFault columns fault ∧ e = fault.error := by
  constructor
  · intro h
    rcases t.accepts_or_firstFault columns with haccepts | ⟨fault, hfault⟩
    · rw [check_of_accepts haccepts] at h
      contradiction
    · rw [check_of_firstFault hfault] at h
      exact ⟨fault, hfault, (Except.error.inj h).symm⟩
  · rintro ⟨fault, hfault, rfl⟩
    exact check_of_firstFault hfault

theorem check_check (t : Table) {columns classes : List ColumnClass}
    (h : t.check columns = .ok classes) : t.check classes = .ok classes := by
  obtain ⟨haccepts, rfl⟩ := check_eq_ok_iff.mp h
  rw [check_of_accepts haccepts.map_cleaned]
  simp

/--
A classification passes exactly if it names columns of the table, each once.
Names, types and order are then kept, only null words are gone, and it passes
again as it is.  One that does not pass is reported for its first fault.
-/
theorem check_passes_or_reports (t : Table) (columns : List ColumnClass) :
    ((∃ classes, t.check columns = .ok classes) ↔ t.Accepts columns) ∧
      (∀ classes, t.check columns = .ok classes →
        List.Forall₂ ColumnClass.ClearsTo columns classes ∧
          t.check classes = .ok classes) ∧
      ∀ e, t.check columns = .error e ↔
        ∃ fault, t.FirstFault columns fault ∧
          e = .classification fault.reason := by
  refine ⟨⟨?_, fun h => ⟨_, check_of_accepts h⟩⟩, ?_, ?_⟩
  · rintro ⟨classes, h⟩
    exact (check_eq_ok_iff.mp h).1
  · intro classes h
    refine ⟨?_, t.check_check h⟩
    obtain ⟨-, rfl⟩ := check_eq_ok_iff.mp h
    exact List.forall₂_map_right_iff.mpr
      (List.forall₂_same.mpr fun c _ => c.clearsTo_cleaned)
  · exact fun _ => check_eq_error_iff

theorem check_passes_or_reports_repeated :
    let t : Table := ⟨[⟨"data", []⟩, ⟨"receita", []⟩]⟩
    let c : ColumnClass := {
      name := "receita", semantic := some " NULL ", format := some "BRL" }
    let cleared : ColumnClass := { name := "receita", format := some "BRL" }
    t.check [c] = .ok [cleared] ∧ t.check [cleared] = .ok [cleared] ∧
      t.check [c, c, { name := "lucro" }] = .error (.classification
        "column 'receita' is classified more than once") := by
  intro t c cleared
  obtain ⟨hpasses, hagain, -⟩ := t.check_passes_or_reports [c]
  obtain ⟨-, -, hreports⟩ := t.check_passes_or_reports
    [c, c, { name := "lucro" }]
  have hcheck : t.check [c] = .ok [cleared] := by rfl
  have haccepts := hpasses.mp ⟨_, hcheck⟩
  have hfault : t.FirstFault [c, c, { name := "lucro" }] (.repeated c.name) :=
    .repeated haccepts (by decide) (by decide)
  exact ⟨hcheck, (hagain _ hcheck).2, (hreports _).mpr ⟨_, hfault, rfl⟩⟩

end Table

end Chartbook
