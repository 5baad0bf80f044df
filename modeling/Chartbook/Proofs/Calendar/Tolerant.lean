import Chartbook.Proofs.Calendar.Layout
import Chartbook.Proofs.Calendar.Separators
import Chartbook.Proofs.Text.Joined

/-!
# The tolerant reading of fixed layouts

The tolerant reading takes a text whose last group has two digits for one with a
short year.  An iso date ends in such a group, its day, so none of the patterns
that are tried has a field for its year, and it is not read.  A date with its
year in the last place is read as in its own layout, and with the month first if
that layout does not read it.
-/

namespace Chartbook

open Pattern Component

namespace IsGroups

variable {sep : Char} {l m n : Nat} {s rest : List Char} {a b c : Component}

theorem isDigit_or_eq (h : IsGroups sep l m n s) {x : Char} (hx : x ∈ s) :
    Number.isDigit x = true ∨ x = sep := by
  cases h with
  | mk first second third =>
      simp only [List.mem_append, List.mem_cons] at hx
      rcases hx with hx | hx | hx | hx | hx
      · exact .inl (first.digits x hx)
      · exact .inr hx
      · exact .inl (second.digits x hx)
      · exact .inr hx
      · exact .inl (third.digits x hx)

theorem not_mem (h : IsGroups sep l m n s) {x : Char}
    (hdigit : Number.isDigit x = false) (hne : x ≠ sep) : x ∉ s := by
  intro hx
  rcases h.isDigit_or_eq hx with hx | hx
  · rw [hx] at hdigit
    contradiction
  · exact hne hx

theorem count_eq_zero (h : IsGroups sep l m n s) {x : Char}
    (hdigit : Number.isDigit x = false) (hne : x ≠ sep) : s.count x = 0 :=
  List.count_eq_zero.mpr (h.not_mem hdigit hne)

theorem isBlank_eq_false (h : IsGroups sep l m n s)
    (hsep : Text.isBlank sep = false) : ∀ x ∈ s, Text.isBlank x = false := by
  intro x hx
  rcases h.isDigit_or_eq hx with hx | rfl
  · exact Number.isBlank_of_isDigit hx
  · exact hsep

end IsGroups

/-! ## Patterns that do not fit -/

namespace Pattern

section Numerals

variable {sep : Char} {k k' : Nat} {ds ds' piece rest t t' : List Char}
  {a b c : Component}

theorem IsField.eq_of_append {n : Int} (h : IsField c piece n)
    (hds : IsNumeral k ds) (hsep : Number.isDigit sep = false)
    (heq : ds ++ sep :: t = piece ++ sep :: t') : ds = piece ∧ t = t' := by
  obtain ⟨x, xs, rfl⟩ := List.exists_cons_of_ne_nil hds.ne_nil
  have hdigits := h.digits_of_append (hds.digits x (List.mem_cons_self ..))
    heq.symm
  exact Text.append_cons_inj (Number.not_mem_of_digits hds.digits hsep)
    (Number.not_mem_of_digits hdigits hsep) heq

theorem Spells.isField {u v w : Int}
    (h : Spells a b c sep (ds ++ sep :: (ds' ++ sep :: rest)) u v w)
    (hds : IsNumeral k ds) (hds' : IsNumeral k' ds')
    (hsep : Number.isDigit sep = false) :
    IsField a ds u ∧ IsField b ds' v ∧ IsField c rest w := by
  generalize hs : ds ++ sep :: (ds' ++ sep :: rest) = s at h
  cases h with
  | mk first second third =>
      obtain ⟨rfl, hrest⟩ := first.eq_of_append hds hsep hs
      obtain ⟨rfl, rfl⟩ := second.eq_of_append hds' hsep hrest
      exact ⟨first, second, third⟩

theorem day?_eq_none_of_not_isField (hds : IsNumeral k ds)
    (hds' : IsNumeral k' ds') (hsep : Number.isDigit sep = false)
    (h : ∀ u v w, ¬(IsField a ds u ∧ IsField b ds' v ∧ IsField c rest w)) :
    (threeFields a b c sep).day? (ds ++ sep :: (ds' ++ sep :: rest)) =
      none :=
  day?_eq_none_of_not_spells hsep fun u v w hspells =>
    h u v w (hspells.isField hds hds' hsep)

theorem day?_eq_none_of_rest {x y : Char} (hds : IsNumeral k ds)
    (hds' : IsNumeral k' ds') (hsep : Number.isDigit sep = false)
    (hx : Number.isDigit x = true) (hy : y ∈ rest)
    (hy' : Number.isDigit y = false) :
    (threeFields a b c sep).day? (ds ++ sep :: (ds' ++ sep :: x :: rest)) =
      none := by
  refine day?_eq_none_of_not_isField hds hds' hsep ?_
  rintro u v w ⟨-, -, hfield⟩
  have hdigits := hfield.digits_of_append hx (List.append_nil _)
  exact Number.not_mem_of_digits hdigits hy' (List.mem_cons_of_mem _ hy)

end Numerals

end Pattern

theorem IsGroups.day?_eq_none {sep : Char} {l m n : Nat} {s : List Char}
    {a b c : Component} (h : IsGroups sep l m n s)
    (hsep : Number.isDigit sep = false) (hl : 0 < l) (hm : 0 < m)
    (hwidth : ¬(l ≤ width a ∧ m ≤ width b ∧ n ≤ width c)) :
    (threeFields a b c sep).day? s = none := by
  cases h with
  | mk first second third =>
      refine day?_eq_none_of_not_isField (first.isNumeral hl le_rfl)
        (second.isNumeral hm le_rfl) hsep ?_
      rintro u v w ⟨hu, hv, hw⟩
      refine hwidth ?_
      rw [← first.length, ← second.length, ← third.length]
      exact ⟨(hu.isNumeral first.digits).1.length_le,
        (hv.isNumeral second.digits).1.length_le,
        (hw.isNumeral third.digits).1.length_le⟩

theorem IsGroups.day?_eq_none_of_ne {sep x : Char} {l m n : Nat}
    {s : List Char} (h : IsGroups sep l m n s) {a b c : Component}
    (hx : Number.isDigit x = false) (hne : x ≠ sep) :
    (threeFields a b c x).day? s = none := by
  refine day?_eq_none_of_count (x := x) ?_
  rw [h.count_eq_zero hx hne]
  exact List.count_pos_iff.mpr (by simp [threeFields])

namespace Timestamp

variable {sep : Char} {l m n : Nat} {s : List Char}

private theorem not_separator_of_isDigit {c : Char}
    (h : Number.isDigit c = true) :
    (c == '/' || c == '-' || c == '.') = false := by
  have hne {x : Char} (hx : Number.isDigit x = false) : (c == x) = false := by
    refine beq_false_of_ne ?_
    rintro rfl
    rw [h] at hx
    contradiction
  rw [hne rfl, hne rfl, hne rfl]
  rfl

theorem isDigit_separator (h : sep ∈ ['/', '-', '.']) :
    Number.isDigit sep = false := by
  simp only [List.mem_cons, List.not_mem_nil, or_false] at h
  rcases h with rfl | rfl | rfl <;> rfl

theorem hasShortYear_of_isGroups (h : IsGroups sep l m n s)
    (hsep : sep ∈ ['/', '-', '.']) (hl : 0 < l) (hm : 0 < m) (hn : 0 < n) :
    hasShortYear s = (n == 2) := by
  have hcut : (sep == '/' || sep == '-' || sep == '.') = true := by
    simpa [or_assoc] using hsep
  cases h with
  | mk first second third =>
      have hdigits {k : Nat} {ds : List Char} (hds : IsRow k ds) (hk : 0 < k) :
          (!ds.isEmpty && ds.all Number.isDigit) = true := by
        have hne := (hds.isNumeral hk le_rfl).ne_nil
        simpa [hne] using hds.digits
      have hkeep {k : Nat} {ds : List Char} (hds : IsRow k ds) (c : Char)
          (hc : c ∈ ds) : (c == '/' || c == '-' || c == '.') = false :=
        not_separator_of_isDigit (hds.digits c hc)
      rw [hasShortYear,
        List.splitOnP_append_cons_of_forall_mem (hkeep first) _ hcut,
        List.splitOnP_append_cons_of_forall_mem (hkeep second) _ hcut,
        List.splitOnP_eq_singleton (hkeep third)]
      simp only [List.all_cons, List.all_nil, hdigits first hl,
        hdigits second hm, hdigits third hn, third.length, Bool.and_true]

theorem ofText?_of_isGroups (h : IsGroups sep l m n s)
    (hsep : sep ∈ ['/', '-', '.']) :
    ofText? s = (ofDateText? s).or (ofMonthText? s) := by
  obtain ⟨hblank, hcolon⟩ : Text.isBlank sep = false ∧ ':' ≠ sep := by
    simp only [List.mem_cons, List.not_mem_nil, or_false] at hsep
    rcases hsep with rfl | rfl | rfl <;> exact ⟨rfl, by decide⟩
  refine ofText?_of_no_colon ?_
    (Text.trim_eq_self (h.isBlank_eq_false hblank)) (h.not_mem rfl hcolon)
  rintro rfl
  have hlength := h.length_eq
  simp at hlength

theorem ofMonthText?_of_isGroups (h : IsGroups sep l m n s)
    (hsep : sep ∈ ['/', '-', '.']) (hl : 0 < l) (hm : 0 < m) (hn : 0 < n) :
    ofMonthText? s = none := by
  have hfirst : (yearFirst '-').day? (s ++ ['-', '0', '1']) = none := by
    by_cases hdash : '-' = sep
    · subst hdash
      cases h with
      | @mk ds₁ ds₂ ds₃ first second third =>
          obtain ⟨x, ds₃, rfl⟩ := List.exists_cons_of_ne_nil
            (third.isNumeral hn le_rfl).ne_nil
          rw [List.append_assoc, List.cons_append, List.append_assoc]
          exact day?_eq_none_of_rest (y := '-') (first.isNumeral hl le_rfl)
            (second.isNumeral hm le_rfl) rfl
            (third.digits x (List.mem_cons_self ..)) (by simp) rfl
    · refine day?_eq_none_of_count (x := '-') ?_
      rw [List.count_append, h.count_eq_zero rfl hdash]
      decide
  have hsecond : (dayFirst '/').day? (['0', '1', '/'] ++ s) = none := by
    by_cases hslash : '/' = sep
    · subst hslash
      cases h with
      | @mk ds₁ ds₂ ds₃ first second third =>
          obtain ⟨x, ds₂, rfl⟩ := List.exists_cons_of_ne_nil
            (second.isNumeral hm le_rfl).ne_nil
          have hday : IsNumeral 2 ['0', '1'] := by decide
          exact day?_eq_none_of_rest (y := '/') hday
            (first.isNumeral hl le_rfl) rfl
            (second.digits x (List.mem_cons_self ..)) (by simp) rfl
    · refine day?_eq_none_of_count (x := '/') ?_
      rw [List.count_append, h.count_eq_zero rfl hslash]
      decide
  rw [ofMonthText?, hfirst, hsecond]
  rfl

theorem ofText?_of_iso (h : Layout.detect s = .iso) : ofText? s = none := by
  have hgroups := Layout.detect_eq_iso_iff.mp h
  have hshort : hasShortYear s = true :=
    hasShortYear_of_isGroups hgroups (by decide) (by decide) (by decide)
      (by decide)
  have hslash : s.count '/' = 0 := hgroups.count_eq_zero rfl (by decide)
  have hpoint : s.count '.' = 0 := hgroups.count_eq_zero rfl (by decide)
  have hdate : ofDateText? s = none := by
    rw [ofDateText?, if_pos hshort, List.findSome?_eq_none_iff]
    simp only [shortDatePatterns, List.forall_mem_cons]
    refine ⟨?_, ?_, ?_, ?_, fun _ hnil => nomatch hnil⟩
    · exact day?_eq_none_of_count (x := '/') (by rw [hslash]; decide)
    · exact hgroups.day?_eq_none rfl (by decide) (by decide) (by decide)
    · exact day?_eq_none_of_count (x := '.') (by rw [hpoint]; decide)
    · exact day?_eq_none_of_count (x := '/') (by rw [hslash]; decide)
  rw [ofText?_of_isGroups hgroups (by decide), hdate,
    ofMonthText?_of_isGroups hgroups (by decide) (by decide) (by decide)
      (by decide)]
  rfl

private theorem no_letter_of_isGroups (h : IsGroups sep l m n s)
    (hsep : sep ∈ ['/', '-', '.']) : ∀ c ∈ s, c.isAlpha = false := by
  intro c hc
  rcases h.isDigit_or_eq hc with hdigit | rfl
  · exact Number.isAlpha_of_isDigit hdigit
  · simp only [List.mem_cons, List.not_mem_nil, or_false] at hsep
    rcases hsep with rfl | rfl | rfl <;> rfl

theorem ofDateText?_of_long (h : IsGroups sep l m 4 s)
    (hsep : sep ∈ ['/', '-', '.']) (hl : 0 < l) (hm : 0 < m) :
    ofDateText? s = ((dayFirst sep).day? s).or
      (if sep = '/' then (monthFirst sep).day? s else none) := by
  have hlong : hasShortYear s = false :=
    hasShortYear_of_isGroups h hsep hl hm (by decide)
  have hday {x : Char} (hx : Number.isDigit x = false) (hne : x ≠ sep) :
      (dayFirst x).day? s = none := h.day?_eq_none_of_ne hx hne
  have hmonth {x : Char} (hx : Number.isDigit x = false) (hne : x ≠ sep) :
      (monthFirst x).day? s = none := h.day?_eq_none_of_ne hx hne
  have hyear {x : Char} (hx : Number.isDigit x = false) :
      (yearFirst x).day? s = none := by
    by_cases heq : x = sep
    · subst heq
      refine h.day?_eq_none hx hl hm fun hwidth => ?_
      exact absurd hwidth.2.2 (by decide)
    · exact h.day?_eq_none_of_ne hx heq
  have hnamed {pattern : Pattern} (hname : pattern.namesMonth = true) :
      pattern.day? s = none :=
    day?_eq_none_of_no_letter hname (no_letter_of_isGroups h hsep)
  rw [ofDateText?, if_neg (by simp [hlong])]
  simp only [List.mem_cons, List.not_mem_nil, or_false] at hsep
  rcases hsep with rfl | rfl | rfl <;>
    simp (disch := decide) only [datePatterns, List.findSome?_cons,
      List.findSome?_nil, hday, hyear, hmonth, hnamed, if_pos, if_neg]
  · cases (dayFirst '/').day? s with
    | some t => rfl
    | none => cases (monthFirst '/').day? s <;> rfl
  · cases (dayFirst '-').day? s <;> rfl
  · cases (dayFirst '.').day? s <;> rfl

theorem ofDateText?_of_short (h : IsGroups sep l m 2 s)
    (hsep : sep ∈ ['/', '-', '.']) (hl : 0 < l) (hm : 0 < m) :
    ofDateText? s = ((dayFirstShort sep).day? s).or
      (if sep = '/' then (monthFirstShort sep).day? s else none) := by
  have hshort : hasShortYear s = true :=
    hasShortYear_of_isGroups h hsep hl hm (by decide)
  have hday {x : Char} (hx : Number.isDigit x = false) (hne : x ≠ sep) :
      (dayFirstShort x).day? s = none := h.day?_eq_none_of_ne hx hne
  have hmonth {x : Char} (hx : Number.isDigit x = false) (hne : x ≠ sep) :
      (monthFirstShort x).day? s = none := h.day?_eq_none_of_ne hx hne
  rw [ofDateText?, if_pos hshort]
  simp only [List.mem_cons, List.not_mem_nil, or_false] at hsep
  rcases hsep with rfl | rfl | rfl <;>
    simp (disch := decide) only [shortDatePatterns, List.findSome?_cons,
      List.findSome?_nil, hday, hmonth, if_pos, if_neg]
  · cases (dayFirstShort '/').day? s with
    | some t => rfl
    | none => cases (monthFirstShort '/').day? s <;> rfl
  · cases (dayFirstShort '-').day? s <;> rfl
  · cases (dayFirstShort '.').day? s <;> rfl

private theorem ofText?_of_dayMonthYear (h : Layout.detect s = .dayMonthYear) :
    ofText? s = (Layout.dayMonthYear.read s).or ((monthFirst '/').day? s) := by
  have hgroups := Layout.detect_eq_dayMonthYear_iff.mp h
  have hslash : '/' ∈ ['/', '-', '.'] := by decide
  rw [ofText?_of_isGroups hgroups hslash,
    ofDateText?_of_long hgroups hslash (by decide) (by decide),
    ofMonthText?_of_isGroups hgroups hslash (by decide) (by decide)
      (by decide), Option.or_none, if_pos rfl]
  rfl

end Timestamp

/-! ## Columns of mixed texts -/

private theorem readDates_mixed {cells : List Cell}
    {dates : List (Option Timestamp)} {first : List Char}
    (hfirst : cells.findSome? Cell.dateText? = some first)
    (hmixed : Layout.detect first = .mixed) (h : readDates cells = .ok dates)
    {i : Nat} {c : Cell} {s : List Char} (hc : cells[i]? = some c)
    (hs : c.dateText? = some s) : dates[i]? = some (Timestamp.ofText? s) := by
  have hdates := readDates_eq_map h
  rw [Layout.ofTexts_of_first hfirst, hmixed] at hdates
  rw [hdates, List.getElem?_map, hc, Option.map_some, hs]
  rfl

/--
The tolerant reading of the texts that have a fixed layout.  It reads no iso
date.  A date with its year in the last place is read as in its layout, or else
with the month first.  So what the fixed layout reads is read tolerantly, alone
and in a column of mixed texts, for the second layout and not for the first.
-/
theorem ofText?_of_layout {s : List Char} {layout : Layout}
    (hlayout : Layout.detect s = layout) (hfixed : layout ≠ .mixed) :
    Timestamp.ofText? s =
        (match layout with
        | .iso => none
        | _ => (layout.read s).or ((monthFirst '/').day? s)) ∧
      ∀ t, layout.read s = some t →
        (Timestamp.ofText? s = some t ↔ layout = .dayMonthYear) ∧
        ∀ (cells : List Cell) (dates : List (Option Timestamp))
          (first : List Char) (i : Nat) (c : Cell),
          cells.findSome? Cell.dateText? = some first →
          Layout.detect first = .mixed → readDates cells = .ok dates →
          cells[i]? = some c → c.dateText? = some s →
          dates[i]? =
            some (if layout = .dayMonthYear then some t else none) := by
  have htext : Timestamp.ofText? s =
      match layout with
      | .iso => none
      | _ => (layout.read s).or ((monthFirst '/').day? s) := by
    cases layout with
    | iso => exact Timestamp.ofText?_of_iso hlayout
    | dayMonthYear => exact Timestamp.ofText?_of_dayMonthYear hlayout
    | mixed => contradiction
  refine ⟨htext, fun t ht => ?_⟩
  have hread : Timestamp.ofText? s =
      if layout = .dayMonthYear then some t else none := by
    rw [htext]
    cases layout with
    | iso => rfl
    | dayMonthYear =>
        rw [ht]
        rfl
    | mixed => contradiction
  refine ⟨?_, fun cells dates first i c hfirst hmixed hdates hc hs => ?_⟩
  · rw [hread]
    simp
  · rw [readDates_mixed hfirst hmixed hdates hc hs, hread]

theorem ofText?_of_layout_mixedColumn :
    let s := "15/01/2024".toList
    let t : Timestamp := .ofDate ⟨2024, 1, 15, by decide⟩
    let cells : List Cell := [.text "15/01/24", .null, .text " 15/01/2024"]
    Layout.dayMonthYear.read s = some t ∧ Timestamp.ofText? s = some t ∧
      ∃ dates, readDates cells = .ok dates ∧ dates[2]? = some (some t) := by
  intro s t cells
  have hlayout : Layout.detect s = .dayMonthYear := by
    decide
  have hread : Layout.dayMonthYear.read s = some t := rfl
  have hfirst : cells.findSome? Cell.dateText? = some "15/01/24".toList := rfl
  have hdates : readDates cells = .ok [some t, none, some t] := rfl
  obtain ⟨-, hmixed⟩ := ofText?_of_layout hlayout (by decide)
  obtain ⟨htext, hcolumn⟩ := hmixed t hread
  exact ⟨hread, htext.mpr rfl, _, hdates,
    hcolumn cells _ _ 2 _ hfirst (by decide) hdates rfl rfl⟩

theorem iso_date_not_read_tolerantly :
    let s := "2024-01-05".toList
    Layout.detect s = .iso ∧
      Layout.iso.read s = some (.ofDate ⟨2024, 1, 5, by decide⟩) ∧
      Timestamp.hasShortYear s = true ∧ Timestamp.ofText? s = none := by
  exact ⟨by decide, rfl, by decide, rfl⟩

end Chartbook
