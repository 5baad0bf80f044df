import Chartbook.Proofs.Calendar.Separators
import Chartbook.Proofs.Number.Literal

/-!
# Numbers are no dates

The fields of a date hold no letters, and its separator stands twice after the
first character.  A literal has letters, or at most one point and no minus sign
after its first character, so no pattern reads it: not as a date, and not with
the day of a month added to it.
-/

namespace Chartbook

open Pattern Component

namespace Pattern

variable {a b c : Component} {sep : Char} {s piece : List Char} {n u v w : Int}

/-! ## The characters of three fields -/

theorem IsField.ne_nil (h : IsField c piece n) : piece ≠ [] := by
  cases h with
  | short hc hblanks hds =>
      exact List.append_ne_nil_of_right_ne_nil _ hds.ne_nil
  | unsignedYear hblanks hds =>
      exact List.append_ne_nil_of_right_ne_nil _ hds.ne_nil
  | positiveYear hblanks hds => simp
  | negativeYear hblanks hds => simp

theorem IsField.no_letter (h : IsField c piece n) :
    ∀ x ∈ piece, x.isAlpha = false := by
  have hparts {blanks ds : List Char} (hblanks : Text.AllBlank blanks)
      (hds : ∀ x ∈ ds, Number.isDigit x = true) :
      (∀ x ∈ blanks, x.isAlpha = false) ∧ ∀ x ∈ ds, x.isAlpha = false :=
    ⟨fun x hx => Text.isAlpha_of_isBlank (hblanks x hx),
      fun x hx => Number.isAlpha_of_isDigit (hds x hx)⟩
  cases h with
  | short hc hblanks hds =>
      exact List.forall_mem_append.mpr (hparts hblanks hds.digits)
  | unsignedYear hblanks hds =>
      exact List.forall_mem_append.mpr (hparts hblanks hds.digits)
  | positiveYear hblanks hds =>
      obtain ⟨hblanks, hds⟩ := hparts hblanks hds.digits
      exact List.forall_mem_append.mpr
        ⟨hblanks, List.forall_mem_cons.mpr ⟨rfl, hds⟩⟩
  | negativeYear hblanks hds =>
      obtain ⟨hblanks, hds⟩ := hparts hblanks hds.digits
      exact List.forall_mem_append.mpr
        ⟨hblanks, List.forall_mem_cons.mpr ⟨rfl, hds⟩⟩

theorem Spells.no_letter (h : Spells a b c sep s u v w)
    (hsep : sep.isAlpha = false) : ∀ x ∈ s, x.isAlpha = false := by
  cases h with
  | mk first second third =>
      exact List.forall_mem_append.mpr ⟨first.no_letter,
        List.forall_mem_cons.mpr ⟨hsep, List.forall_mem_append.mpr
          ⟨second.no_letter, List.forall_mem_cons.mpr
            ⟨hsep, third.no_letter⟩⟩⟩⟩

theorem Spells.two_le_count_tail (h : Spells a b c sep s u v w) :
    2 ≤ s.tail.count sep := by
  cases h with
  | mk first second third =>
      obtain ⟨x, xs, rfl⟩ := List.exists_cons_of_ne_nil first.ne_nil
      rw [List.cons_append, List.tail_cons, List.count_append,
        List.count_cons_self, List.count_append, List.count_cons_self]
      omega

theorem day?_eq_none_of_letter_or (hsep : sep ∈ ['/', '-', '.'])
    (h : (∃ x ∈ s, x.isAlpha = true) ∨ s.tail.count sep < 2) :
    (threeFields a b c sep).day? s = none := by
  obtain ⟨hdigit, halpha⟩ :
      Number.isDigit sep = false ∧ sep.isAlpha = false := by
    simp only [List.mem_cons, List.not_mem_nil, or_false] at hsep
    rcases hsep with rfl | rfl | rfl <;> exact ⟨rfl, rfl⟩
  refine day?_eq_none_of_not_spells hdigit fun u v w hspells => ?_
  rcases h with ⟨x, hx, hletter⟩ | hcount
  · rw [hspells.no_letter halpha x hx] at hletter
    contradiction
  · exact absurd hspells.two_le_count_tail (by omega)

end Pattern

namespace Timestamp

variable {s : List Char}

theorem ofText?_trim (s : List Char) : ofText? (Text.trim s) = ofText? s := by
  rw [ofText?, ofText?, Text.trim_trim]

private theorem datePattern_cases {pattern : Pattern}
    (h : pattern ∈ shortDatePatterns ∨ pattern ∈ datePatterns) :
    (∃ a b c, ∃ sep ∈ ['/', '-', '.'], pattern = threeFields a b c sep) ∨
      pattern.namesMonth = true := by
  simp only [shortDatePatterns, datePatterns, List.mem_cons,
    List.not_mem_nil, or_false] at h
  rcases h with (rfl | rfl | rfl | rfl) |
    rfl | rfl | rfl | rfl | rfl | rfl | rfl | rfl | rfl | rfl
  all_goals first
    | exact .inr rfl
    | exact .inl ⟨_, _, _, _, by decide, rfl⟩

section Literals

variable (h : Number.IsLiteral s)

include h

private theorem letter_or_of_isLiteral {sep : Char}
    (hsep : sep ∈ ['/', '-', '.']) :
    (∃ x ∈ s, x.isAlpha = true) ∨ s.tail.count sep < 2 := by
  have hslash : '/' ∉ s := h.allLiteral.not_mem rfl
  rcases h.exists_letter_or with hletter | ⟨hpoint, hminus⟩
  · exact .inl hletter
  · right
    simp only [List.mem_cons, List.not_mem_nil, or_false] at hsep
    rcases hsep with rfl | rfl | rfl
    · rw [List.count_eq_zero.mpr fun hmem =>
        hslash (List.mem_of_mem_tail hmem)]
      decide
    · rw [List.count_eq_zero.mpr hminus]
      decide
    · exact Nat.lt_succ_of_le <|
        (s.tail_sublist.count_le '.').trans hpoint

private theorem ofDateText?_of_isLiteral : ofDateText? s = none := by
  have hnames : InMonthNames fun c => !Number.isLowerLiteralChar c := by
    unfold InMonthNames
    decide
  rw [ofDateText?, List.findSome?_eq_none_iff]
  intro pattern hpattern
  have hcases : pattern ∈ shortDatePatterns ∨ pattern ∈ datePatterns := by
    split at hpattern
    · exact .inl hpattern
    · exact .inr hpattern
  rcases datePattern_cases hcases with ⟨a, b, c, sep, hsep, rfl⟩ | hmonth
  · exact day?_eq_none_of_letter_or hsep (letter_or_of_isLiteral h hsep)
  · refine day?_eq_none_of_names hnames hmonth fun c hc => ?_
    rw [h.allLiteral c hc]
    rfl

private theorem ofMonthText?_of_isLiteral (hne : s ≠ []) :
    ofMonthText? s = none := by
  obtain ⟨x, rest, rfl⟩ := List.exists_cons_of_ne_nil hne
  have hslash : '/' ∉ x :: rest := h.allLiteral.not_mem rfl
  have hyearFirst : (yearFirst '-').day? (x :: rest ++ ['-', '0', '1']) =
      none := by
    refine day?_eq_none_of_letter_or (by decide) ?_
    rcases h.exists_letter_or with ⟨y, hy, hletter⟩ | ⟨-, hminus⟩
    · exact .inl ⟨y, List.mem_append_left _ hy, hletter⟩
    · right
      rw [List.tail_cons] at hminus
      rw [List.cons_append, List.tail_cons, List.count_append,
        List.count_eq_zero.mpr hminus]
      decide
  have hdayFirst : (dayFirst '/').day? (['0', '1', '/'] ++ x :: rest) =
      none := by
    refine day?_eq_none_of_letter_or (by decide) (.inr ?_)
    rw [List.cons_append, List.tail_cons, List.count_append,
      List.count_eq_zero.mpr hslash]
    decide
  rw [ofMonthText?, hyearFirst, hdayFirst]
  rfl

theorem ofText?_of_isLiteral : ofText? s = none := by
  have htrim : Text.trim s = s :=
    Text.trim_eq_self h.allLiteral.isBlank_eq_false
  by_cases hne : s = []
  · rw [hne]
    rfl
  · rw [ofText?_of_no_colon hne htrim (h.allLiteral.not_mem rfl),
      ofDateText?_of_isLiteral h, ofMonthText?_of_isLiteral h hne]
    rfl

end Literals

end Timestamp

end Chartbook
