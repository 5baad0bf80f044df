import Chartbook.Kpi.Expression
import Chartbook.Proofs.Text.Blank
import Chartbook.Proofs.Text.Joined
import Mathlib.Data.List.Forall2

/-!
# The grammar of expressions

The texts of the language are given by their parts, white space included.  The
reader takes exactly these texts, and a text determines its parts.
-/

namespace Chartbook.Expression

open Text

/--
The parts of a call as it stands in a text.  Arguments are kept as written, with
the white space around them.
-/
@[ext]
structure Spelling where
  before : List Char
  name : List Char
  gap : List Char
  args : List (List Char)
  after : List Char
  before_blank : AllBlank before
  gap_blank : AllBlank gap
  after_blank : AllBlank after
  name_ne_nil : name ≠ []
  name_letters : ∀ c ∈ name, c.isAlpha = true ∨ c = '_'
  args_ne_nil : args ≠ []
  args_plain : ∀ a ∈ args, '(' ∉ a ∧ ')' ∉ a ∧ ',' ∉ a
  args_not_blank : ∀ a ∈ args, ¬AllBlank a

namespace Spelling

def inner (p : Spelling) : List Char := [','].intercalate p.args

def text (p : Spelling) : List Char :=
  p.before ++ (p.name ++ (p.gap ++ '(' :: (p.inner ++ ')' :: p.after)))

/-- The call that is meant: the name in lower case, the arguments trimmed. -/
def expression (p : Spelling) : Expression :=
  ⟨String.ofList (asciiLower p.name),
    p.args.map fun a => String.ofList (trim a)⟩

end Spelling

/-! ## Characters of the parts -/

theorem isNameChar_iff {c : Char} :
    isNameChar c = true ↔ c.isAlpha = true ∨ c = '_' := by
  simp [isNameChar]

theorem isBlank_eq_false_of_isNameChar {c : Char} (h : isNameChar c = true) :
    isBlank c = false := by
  have hcode : 65 ≤ c.toNat ∧ c.toNat ≤ 122 := by
    rcases isNameChar_iff.mp h with halpha | rfl
    · rcases Bool.or_eq_true_iff.mp halpha with hupper | hlower
      · have hrange : 65 ≤ c.toNat ∧ c.toNat ≤ 90 := of_decide_eq_true hupper
        omega
      · obtain ⟨hlow, hhigh⟩ := Bool.and_eq_true_iff.mp hlower
        have hleast : 97 ≤ c.toNat := of_decide_eq_true hlow
        have hgreatest : c.toNat ≤ 122 := of_decide_eq_true hhigh
        omega
    · decide
  simp only [isBlank, Bool.or_eq_false_iff, Bool.and_eq_false_iff,
    decide_eq_false_iff_not, beq_eq_false_iff_ne]
  omega

theorem isNameChar_eq_false_of_isBlank {c : Char} (h : isBlank c = true) :
    isNameChar c = false := by
  refine Bool.of_not_eq_true fun hname => ?_
  rw [isBlank_eq_false_of_isNameChar hname] at h
  contradiction

namespace Spelling

variable (p : Spelling)

theorem isNameChar_of_mem_name {c : Char} (h : c ∈ p.name) :
    isNameChar c = true :=
  isNameChar_iff.mpr (p.name_letters c h)

theorem isBlank_of_mem_name {c : Char} (h : c ∈ p.name) : isBlank c = false :=
  isBlank_eq_false_of_isNameChar (p.isNameChar_of_mem_name h)

theorem close_not_mem_inner : ')' ∉ p.inner :=
  (not_mem_intercalate_iff (by decide)).mpr fun a ha => (p.args_plain a ha).2.1

theorem splitOn_inner : p.inner.splitOn ',' = p.args :=
  List.splitOn_intercalate ',' (fun a ha => (p.args_plain a ha).2.2)
    p.args_ne_nil

end Spelling

/-! ## The parts of the reader -/

theorem stripClosing?_eq_some_iff {s inner : List Char} :
    stripClosing? s = some inner ↔ s = inner ++ [')'] := by
  constructor
  · intro h
    rw [stripClosing?] at h
    split at h
    · rename_i rest hreverse
      cases h
      rw [← List.reverse_cons, ← hreverse, List.reverse_reverse]
    · contradiction
  · rintro rfl
    simp [stripClosing?]

theorem name?_eq_some_iff {s : List Char} {function : String} :
    name? s = some function ↔
      ∃ name gap, s = name ++ gap ∧ AllBlank gap ∧ name ≠ [] ∧
        (∀ c ∈ name, isNameChar c = true) ∧
        function = String.ofList (asciiLower name) := by
  constructor
  · intro h
    rw [name?] at h
    split at h
    · rename_i hname
      cases h
      obtain ⟨gap, hgap, heq⟩ := exists_eq_trimEnd_append s
      exact ⟨trimEnd s, gap, heq, hgap, hname.1, List.all_eq_true.mp hname.2,
        rfl⟩
    · contradiction
  · rintro ⟨name, gap, rfl, hgap, hne, hletters, rfl⟩
    have htrim : trimEnd (name ++ gap) = name := by
      rw [trimEnd_append hgap]
      exact trimEnd_eq_self fun c hc =>
        isBlank_eq_false_of_isNameChar (hletters c hc)
    rw [name?, htrim, if_pos ⟨hne, List.all_eq_true.mpr hletters⟩]

theorem any_parenthesis_iff {s : List Char} :
    (s.any fun c => c == '(' || c == ')') = true ↔ '(' ∈ s ∨ ')' ∈ s := by
  simp [List.any_eq_true, and_or_left, exists_or]

theorem any_isEmpty_trim_iff {pieces : List (List Char)} :
    ((pieces.map trim).any List.isEmpty) = true ↔
      ∃ a ∈ pieces, AllBlank a := by
  simp [List.any_eq_true, trim_eq_nil_iff]

theorem args?_eq_some_iff {inner : List Char} {args : List String} :
    args? inner = some args ↔
      ∃ pieces : List (List Char), pieces ≠ [] ∧
        (∀ a ∈ pieces, '(' ∉ a ∧ ')' ∉ a ∧ ',' ∉ a) ∧
        (∀ a ∈ pieces, ¬AllBlank a) ∧
        inner = [','].intercalate pieces ∧
        args = pieces.map fun a => String.ofList (trim a) := by
  constructor
  · intro h
    rw [args?] at h
    split at h
    · contradiction
    · rename_i hparens
      have hjoined : [','].intercalate (inner.splitOn ',') = inner :=
        List.intercalate_splitOn ','
      rw [any_parenthesis_iff, not_or, ← hjoined,
        not_mem_intercalate_iff (by decide),
        not_mem_intercalate_iff (by decide)] at hparens
      simp only at h
      split at h
      · contradiction
      · rename_i hblank
        cases h
        refine ⟨inner.splitOn ',', List.splitOn_ne_nil _ _,
          fun a ha => ⟨hparens.1 a ha, hparens.2 a ha,
            not_mem_of_mem_splitOn ha⟩,
          fun a ha hall => hblank (any_isEmpty_trim_iff.mpr ⟨a, ha, hall⟩),
          hjoined.symm, ?_⟩
        rw [List.map_map]
        rfl
  · rintro ⟨pieces, hne, hplain, hblank, rfl, rfl⟩
    have hparens : ¬('(' ∈ [','].intercalate pieces ∨
        ')' ∈ [','].intercalate pieces) := by
      rw [not_or, not_mem_intercalate_iff (by decide),
        not_mem_intercalate_iff (by decide)]
      exact ⟨fun a ha => (hplain a ha).1, fun a ha => (hplain a ha).2.1⟩
    have hpieces : ([','].intercalate pieces).splitOn ',' = pieces :=
      List.splitOn_intercalate ',' (fun a ha => (hplain a ha).2.2) hne
    have hnonempty : ¬∃ a ∈ pieces, AllBlank a := by
      rintro ⟨a, ha, hall⟩
      exact hblank a ha hall
    rw [args?, if_neg (any_parenthesis_iff.not.mpr hparens)]
    simp only [hpieces, any_isEmpty_trim_iff.not.mpr hnonempty, List.map_map]
    rfl

theorem ofChars?_eq_some_iff {source : List Char} {e : Expression} :
    ofChars? source = some e ↔
      ∃ front inner, trim source = front ++ '(' :: (inner ++ [')']) ∧
        '(' ∉ front ∧ name? front = some e.function ∧
        args? inner = some e.args := by
  constructor
  · intro h
    rw [ofChars?] at h
    split at h
    · contradiction
    · rename_i c rest hrest
      simp only [Option.bind_eq_bind, Option.bind_eq_some_iff,
        Option.some.injEq] at h
      obtain ⟨function, hname, inner, hinner, args, hargs, rfl⟩ := h
      have hopen : c = '(' := by
        have hhead := List.head?_dropWhile_not (· ≠ '(') (trim source)
        rw [hrest] at hhead
        simpa using hhead
      have hcut := List.takeWhile_append_dropWhile (p := (· ≠ '('))
        (l := trim source)
      rw [hrest, hopen, stripClosing?_eq_some_iff.mp hinner] at hcut
      refine ⟨_, inner, hcut.symm, fun hmem => ?_, hname, hargs⟩
      simpa using List.mem_takeWhile_imp hmem
  · rintro ⟨front, inner, heq, hopen, hname, hargs⟩
    have hfront : ∀ c ∈ front, decide (c ≠ '(') = true := by
      intro c hc
      refine decide_eq_true fun heq => hopen ?_
      rwa [← heq]
    have htake : (trim source).takeWhile (· ≠ '(') = front := by
      rw [heq, List.takeWhile_append_of_pos hfront]
      simp
    have hdrop : (trim source).dropWhile (· ≠ '(') =
        '(' :: (inner ++ [')']) := by
      rw [heq, List.dropWhile_append_of_pos hfront]
      simp
    have hclosing := stripClosing?_eq_some_iff.mpr
      (rfl : inner ++ [')'] = inner ++ [')'])
    simp only [ofChars?, hdrop, htake, hname, hclosing, hargs,
      Option.bind_eq_bind, Option.bind_some]

/-! ## Reading spelled calls -/

namespace Spelling

variable (p : Spelling)

private theorem trim_text :
    trim p.text = p.name ++ p.gap ++ '(' :: (p.inner ++ [')']) := by
  obtain ⟨c, name, hname⟩ := List.exists_cons_of_ne_nil p.name_ne_nil
  have hc : isBlank c = false := p.isBlank_of_mem_name (by simp [hname])
  have hstart (s : List Char) : trimStart (p.name ++ s) = p.name ++ s := by
    rw [hname, List.cons_append, trimStart_cons hc]
  have hclosed : p.text = p.before ++
      (p.name ++ (p.gap ++ '(' :: (p.inner ++ [')']))) ++ p.after := by
    simp [text]
  rw [hclosed, trim_append p.before_blank p.after_blank, trim, hstart]
  have hlast : p.name ++ (p.gap ++ '(' :: (p.inner ++ [')'])) =
      (p.name ++ (p.gap ++ '(' :: p.inner)) ++ [')'] := by
    simp
  rw [hlast, trimEnd_concat (by decide)]
  simp

private theorem ofChars?_text : ofChars? p.text = some p.expression := by
  refine ofChars?_eq_some_iff.mpr
    ⟨p.name ++ p.gap, p.inner, p.trim_text, fun hmem => ?_, ?_, ?_⟩
  · rcases List.mem_append.mp hmem with h | h
    · have hname := p.isNameChar_of_mem_name h
      revert hname
      decide
    · have hblank := p.gap_blank _ h
      revert hblank
      decide
  · exact name?_eq_some_iff.mpr ⟨p.name, p.gap, rfl, p.gap_blank,
      p.name_ne_nil, fun c hc => p.isNameChar_of_mem_name hc, rfl⟩
  · exact args?_eq_some_iff.mpr ⟨p.args, p.args_ne_nil, p.args_plain,
      p.args_not_blank, rfl, rfl⟩

end Spelling

theorem exists_spelling {source : List Char} {e : Expression}
    (h : ofChars? source = some e) :
    ∃ p : Spelling, p.text = source ∧ p.expression = e := by
  obtain ⟨function, args⟩ := e
  obtain ⟨front, inner, htrim, -, hname, hargs⟩ := ofChars?_eq_some_iff.mp h
  obtain ⟨name, gap, rfl, hgap, hne, hletters, rfl⟩ :=
    name?_eq_some_iff.mp hname
  obtain ⟨pieces, hpieces, hplain, hblank, rfl, rfl⟩ :=
    args?_eq_some_iff.mp hargs
  obtain ⟨before, after, hbefore, hafter, hsource⟩ :=
    exists_eq_append_trim source
  refine ⟨⟨before, name, gap, pieces, after, hbefore, hgap, hafter, hne,
    fun c hc => isNameChar_iff.mp (hletters c hc), hpieces, hplain, hblank⟩,
    ?_, rfl⟩
  rw [hsource, htrim]
  simp [Spelling.text, Spelling.inner]

theorem parse_of_spelling {p : Spelling} {source : String}
    (h : p.text = source.toList) : parse source = .ok p.expression := by
  rw [parse, ← h, p.ofChars?_text]

theorem parse_of_no_spelling {source : String}
    (h : ∀ p : Spelling, p.text ≠ source.toList) :
    parse source = .error (.malformed source) := by
  rw [parse]
  split
  · rename_i e he
    obtain ⟨p, hp, -⟩ := exists_spelling he
    exact absurd hp (h p)
  · rfl

/-! ## The parts are determined -/

namespace Spelling

private theorem takeWhile_isBlank_name (p : Spelling) (s : List Char) :
    (p.name ++ s).takeWhile isBlank = [] := by
  obtain ⟨c, name, hname⟩ := List.exists_cons_of_ne_nil p.name_ne_nil
  have hc : isBlank c = false := p.isBlank_of_mem_name (by simp [hname])
  rw [hname, List.cons_append, List.takeWhile_cons_of_neg (by simp [hc])]

private theorem takeWhile_isNameChar_gap (p : Spelling) (s : List Char) :
    (p.gap ++ '(' :: s).takeWhile isNameChar = [] := by
  cases hgap : p.gap with
  | nil => rfl
  | cons c gap =>
      have hc : isNameChar c = false :=
        isNameChar_eq_false_of_isBlank (p.gap_blank c (by simp [hgap]))
      rw [List.cons_append, List.takeWhile_cons_of_neg (by simp [hc])]

theorem text_injective {p q : Spelling} (h : p.text = q.text) : p = q := by
  obtain ⟨hbefore, h⟩ := append_inj_of_span p.before_blank q.before_blank
    (p.takeWhile_isBlank_name _) (q.takeWhile_isBlank_name _) h
  obtain ⟨hname, h⟩ := append_inj_of_span
    (fun c hc => p.isNameChar_of_mem_name hc)
    (fun c hc => q.isNameChar_of_mem_name hc)
    (p.takeWhile_isNameChar_gap _) (q.takeWhile_isNameChar_gap _) h
  obtain ⟨hgap, h⟩ := append_inj_of_span p.gap_blank q.gap_blank rfl rfl h
  have hopen (r : Spelling) : ∀ c ∈ r.inner, decide (c ≠ ')') = true := by
    intro c hc
    refine decide_eq_true fun heq => r.close_not_mem_inner ?_
    rwa [← heq]
  obtain ⟨hinner, h⟩ := append_inj_of_span (hopen p) (hopen q) rfl rfl
    (List.cons.inj h).2
  have hargs : p.args = q.args := by
    rw [← p.splitOn_inner, hinner, q.splitOn_inner]
  exact Spelling.ext hbefore hname hgap hargs (List.cons.inj h).2

end Spelling

/-! ## Names that can be called -/

structure Writable (column : String) : Prop where
  trimmed : trimmed column = column
  ne_empty : column ≠ ""
  plain : '(' ∉ column.toList ∧ ')' ∉ column.toList ∧ ',' ∉ column.toList

theorem Writable.trim_toList {column : String} (h : Writable column) :
    trim column.toList = column.toList := by
  have htrimmed := congrArg String.toList h.trimmed
  rwa [Text.trimmed, String.toList_ofList] at htrimmed

theorem Writable.not_blank {column : String} (h : Writable column) :
    ¬AllBlank column.toList := by
  intro hblank
  have hnil := trim_eq_nil_iff.mpr hblank
  rw [h.trim_toList] at hnil
  exact h.ne_empty (String.toList_eq_nil_iff.mp hnil)

theorem not_mem_padded {opening closing s : List Char} {c : Char}
    (hopening : AllBlank opening) (hclosing : AllBlank closing)
    (hblank : isBlank c = false) (h : c ∉ s) :
    c ∉ opening ++ s ++ closing := by
  intro hc
  rcases List.mem_append.mp hc with hc | hc
  · rcases List.mem_append.mp hc with hc | hc
    · simp [hopening c hc] at hblank
    · exact h hc
  · simp [hclosing c hc] at hblank

inductive Padded : List Char → String → Prop where
  | mk {opening closing : List Char} {column : String}
      (hopening : AllBlank opening) (hclosing : AllBlank closing)
      (hcolumn : Writable column) :
      Padded (opening ++ column.toList ++ closing) column

namespace Padded

variable {piece : List Char} {column : String}

theorem plain (h : Padded piece column) :
    '(' ∉ piece ∧ ')' ∉ piece ∧ ',' ∉ piece := by
  obtain ⟨hopening, hclosing, hcolumn⟩ := h
  exact ⟨not_mem_padded hopening hclosing (by decide) hcolumn.plain.1,
    not_mem_padded hopening hclosing (by decide) hcolumn.plain.2.1,
    not_mem_padded hopening hclosing (by decide) hcolumn.plain.2.2⟩

theorem not_blank (h : Padded piece column) : ¬AllBlank piece := by
  obtain ⟨hopening, hclosing, hcolumn⟩ := h
  exact fun h => hcolumn.not_blank fun c hc => h c (by simp [hc])

private theorem ofList_trim (h : Padded piece column) :
    String.ofList (trim piece) = column := by
  obtain ⟨hopening, hclosing, hcolumn⟩ := h
  rw [trim_append hopening hclosing, hcolumn.trim_toList, String.ofList_toList]

end Padded

private theorem exists_padded_of_mem {pieces : List (List Char)}
    {columns : List String} (h : List.Forall₂ Padded pieces columns) :
    ∀ piece ∈ pieces, ∃ column, Padded piece column := by
  induction h with
  | nil => nofun
  | cons hpiece _ ih => exact List.forall_mem_cons.mpr ⟨⟨_, hpiece⟩, ih⟩

private theorem map_ofList_trim {pieces : List (List Char)}
    {columns : List String} (h : List.Forall₂ Padded pieces columns) :
    pieces.map (fun a => String.ofList (trim a)) = columns := by
  induction h with
  | nil => rfl
  | cons hpiece _ ih => rw [List.map_cons, hpiece.ofList_trim, ih]

theorem exists_spelling_columns {before name gap after : List Char}
    {pieces : List (List Char)} {columns : List String}
    (hbefore : AllBlank before) (hgap : AllBlank gap) (hafter : AllBlank after)
    (hne : name ≠ []) (hletters : ∀ c ∈ name, c.isAlpha = true ∨ c = '_')
    (hpieces : pieces ≠ []) (hcolumns : List.Forall₂ Padded pieces columns) :
    ∃ p : Spelling,
      p.text = before ++ name ++ gap ++ ['('] ++ [','].intercalate pieces ++
        [')'] ++ after ∧
      p.expression = ⟨String.ofList (asciiLower name), columns⟩ := by
  have hpadded := exists_padded_of_mem hcolumns
  have hplain : ∀ a ∈ pieces, '(' ∉ a ∧ ')' ∉ a ∧ ',' ∉ a := by
    intro a ha
    obtain ⟨column, hcolumn⟩ := hpadded a ha
    exact hcolumn.plain
  have hblank : ∀ a ∈ pieces, ¬AllBlank a := by
    intro a ha
    obtain ⟨column, hcolumn⟩ := hpadded a ha
    exact hcolumn.not_blank
  refine ⟨⟨before, name, gap, pieces, after, hbefore, hgap, hafter, hne,
    hletters, hpieces, hplain, hblank⟩, ?_, ?_⟩
  · simp [Spelling.text, Spelling.inner]
  · rw [Spelling.expression, map_ofList_trim hcolumns]

private theorem exists_spelling_column
    {before name gap opening closing after : List Char} {column : String}
    (hbefore : AllBlank before) (hgap : AllBlank gap)
    (hopening : AllBlank opening) (hclosing : AllBlank closing)
    (hafter : AllBlank after) (hne : name ≠ [])
    (hletters : ∀ c ∈ name, c.isAlpha = true ∨ c = '_')
    (hcolumn : Writable column) :
    ∃ p : Spelling,
      p.text = before ++ name ++ gap ++ ['('] ++ opening ++ column.toList ++
        closing ++ [')'] ++ after ∧
      p.expression = ⟨String.ofList (asciiLower name), [column]⟩ := by
  obtain ⟨p, htext, hcall⟩ := exists_spelling_columns hbefore hgap hafter hne
    hletters (List.cons_ne_nil _ _)
    (.cons (.mk hopening hclosing hcolumn) .nil)
  refine ⟨p, ?_, hcall⟩
  rw [htext]
  simp

/--
The reader accepts exactly the texts that can be spelled, in one way only, and
means the call that is spelled.  Every other text is malformed.  So a name
without parentheses and commas is read as it is, whatever white space stands
around the parts of the call.
-/
theorem parse_accepts_spellings (source : String) :
    ((∃ e, parse source = .ok e) ↔
        ∃ p : Spelling, p.text = source.toList) ∧
      (∀ p : Spelling, p.text = source.toList →
        parse source = .ok p.expression ∧
          ∀ q : Spelling, q.text = source.toList → q = p) ∧
      ((∀ p : Spelling, p.text ≠ source.toList) →
        parse source = .error (.malformed source)) ∧
      ∀ (before name gap opening closing after : List Char) (column : String),
        AllBlank before → AllBlank gap → AllBlank opening →
        AllBlank closing → AllBlank after →
        name ≠ [] → (∀ c ∈ name, c.isAlpha = true ∨ c = '_') →
        Writable column →
        source = String.ofList (before ++ name ++ gap ++ ['('] ++ opening ++
          column.toList ++ closing ++ [')'] ++ after) →
        parse source = .ok ⟨String.ofList (asciiLower name), [column]⟩ := by
  refine ⟨⟨?_, ?_⟩, fun p hp => ⟨parse_of_spelling hp, fun q hq => ?_⟩,
    parse_of_no_spelling, ?_⟩
  · rintro ⟨e, he⟩
    by_contra hnone
    rw [parse_of_no_spelling fun p hp => hnone ⟨p, hp⟩] at he
    contradiction
  · rintro ⟨p, hp⟩
    exact ⟨p.expression, parse_of_spelling hp⟩
  · exact Spelling.text_injective (hq.trans hp.symm)
  · intro before name gap opening closing after column hbefore hgap hopening
      hclosing hafter hne hletters hcolumn hsource
    obtain ⟨p, htext, hcall⟩ := exists_spelling_column hbefore hgap hopening
      hclosing hafter hne hletters hcolumn
    rw [← hcall]
    refine parse_of_spelling ?_
    rw [htext, hsource, String.toList_ofList]

theorem parse_accepts_spellings_padded :
    parse " Sum\t( meta mensal )" = .ok ⟨"sum", ["meta mensal"]⟩ ∧
      parse "sum(avg(a))" = .error (.malformed "sum(avg(a))") := by
  constructor
  · obtain ⟨-, -, -, hcall⟩ := parse_accepts_spellings " Sum\t( meta mensal )"
    have hspace : AllBlank [' '] := List.all_eq_true.mp rfl
    have htab : AllBlank ['\t'] := List.all_eq_true.mp rfl
    have hname : ∀ c ∈ ['S', 'u', 'm'], isNameChar c = true :=
      List.all_eq_true.mp rfl
    exact hcall [' '] ['S', 'u', 'm'] ['\t'] [' '] [' '] [] "meta mensal"
      hspace htab hspace hspace (List.all_eq_true.mp rfl) (by decide)
      (fun c hc => isNameChar_iff.mp (hname c hc))
      ⟨by decide, by decide, by decide⟩ (by decide)
  · obtain ⟨haccepted, -, hrefused, -⟩ := parse_accepts_spellings "sum(avg(a))"
    refine hrefused fun p hp => ?_
    obtain ⟨e, he⟩ := haccepted.mpr ⟨p, hp⟩
    cases he

end Chartbook.Expression
