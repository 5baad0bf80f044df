import Chartbook.Number.Locale
import Chartbook.Proofs.Number.Literal
import Chartbook.Proofs.Text.Joined

/-!
# Reading in several locales

One currency symbol is stripped from the start of a number, and then white space
counts nowhere.  A text without percent sign and comma is read as a literal, so
the reading in several locales reads every literal as the number it denotes.
-/

namespace Chartbook.Number

variable {s before symbol body : List Char}

/-! ## Symbols in front -/

abbrev symbolStarts : List Char := ['R', 'U', '€', '£', '—']

abbrev NoSymbol (s : List Char) : Prop := ∀ c ∈ symbolStarts, c ∉ s

theorem AllLiteral.noSymbol (h : AllLiteral s) : NoSymbol s := by
  have hstarts : (symbolStarts.all fun c => !isLowerLiteralChar c.toLower) =
      true := by
    decide
  exact fun c hc => h.not_mem (by simpa using List.all_eq_true.mp hstarts c hc)

private theorem stripSymbols_append (hsymbol : symbol ∈ [] :: currencySymbols)
    (h : NoSymbol s) :
    stripSymbols currencySymbols (symbol ++ s) = s := by
  have hkeep {c : Char} {rest : List Char} (hc : c ∈ symbolStarts) :
      ((c :: rest).isPrefixOf? s).getD s = s := by
    cases s with
    | nil => rfl
    | cons x s =>
        have hne : (c == x) = false :=
          beq_false_of_ne (List.ne_of_not_mem_cons (h c hc))
        simp [List.isPrefixOf?, hne]
  simp only [currencySymbols, List.mem_cons, List.not_mem_nil,
    or_false] at hsymbol
  rcases hsymbol with rfl | rfl | rfl | rfl | rfl <;>
    simp [stripSymbols, currencySymbols, List.isPrefixOf?, hkeep]

private theorem isBlank_of_mem_symbol
    (hsymbol : symbol ∈ [] :: currencySymbols) :
    ∀ c ∈ symbol, Text.isBlank c = false := by
  have hvisible : (([] :: currencySymbols).all fun symbol =>
      symbol.all fun c => !Text.isBlank c) = true := by
    decide
  intro c hc
  simpa using List.all_eq_true.mp
    (List.all_eq_true.mp hvisible symbol hsymbol) c hc

/-- One currency symbol and all white space are left out. -/
theorem ofLocale?_eq_ofCompact? (hbefore : Text.AllBlank before)
    (hsymbol : symbol ∈ [] :: currencySymbols) (hne : Text.unspaced body ≠ [])
    (h : NoSymbol (Text.unspaced body)) :
    ofLocale? (before ++ symbol ++ body) =
      ofCompact? (Text.unspaced body) := by
  have hstarts : (symbolStarts.all fun c => !Text.isBlank c) = true := by
    decide
  have hdash : ∀ symbol ∈ [] :: currencySymbols, '—' ∉ symbol := by decide
  obtain ⟨body', htrim, hbody⟩ :=
    Text.exists_trim_eq_append hbefore (isBlank_of_mem_symbol hsymbol) body
  rw [← hbody] at hne h ⊢
  have hno : NoSymbol body' := fun c hc hmem =>
    h c hc (List.mem_filter.mpr ⟨hmem, List.all_eq_true.mp hstarts c hc⟩)
  have hnil : symbol ++ body' ≠ [] := by
    intro heq
    rw [(List.append_eq_nil_iff.mp heq).2] at hne
    exact hne rfl
  have hmissing : symbol ++ body' ≠ ['—'] := by
    intro heq
    have hmem : '—' ∈ symbol ++ body' := heq ▸ List.mem_singleton_self _
    rcases List.mem_append.mp hmem with hmem | hmem
    · exact hdash symbol hsymbol hmem
    · exact hno '—' (by decide) hmem
  rw [ofLocale?, htrim, if_neg (not_or.mpr ⟨hnil, hmissing⟩),
    stripSymbols_append hsymbol hno]

/-! ## Percent signs and commas -/

theorem stripPercent?_concat (s : List Char) :
    stripPercent? (s ++ ['%']) = some s := by
  simp [stripPercent?]

theorem stripPercent?_eq_none (h : '%' ∉ s) : stripPercent? s = none := by
  rw [stripPercent?]
  split
  · rename_i body heq
    have hmem : '%' ∈ s := by
      rw [← List.mem_reverse, heq]
      exact List.mem_cons_self ..
    exact absurd hmem h
  · rfl

private theorem toPointForm_eq_self (h : ',' ∉ s) : toPointForm s = s := by
  have hlast : lastSeparator? s ≠ some ',' := by
    intro hlast
    exact h (List.mem_reverse.mp (List.mem_of_find?_eq_some hlast))
  rw [toPointForm, if_neg hlast]
  exact Text.filter_ne_eq_self h

theorem ofLocale?_trim (s : List Char) :
    ofLocale? (Text.trim s) = ofLocale? s := by
  rw [ofLocale?, ofLocale?, Text.trim_trim]

/-! ## Literals -/

theorem IsLiteral.ofCompact?_eq (h : IsLiteral s) :
    ofCompact? s = ofPlain? s := by
  rw [ofCompact?, stripPercent?_eq_none (h.allLiteral.not_mem rfl)]
  dsimp only
  rw [toPointForm_eq_self (h.allLiteral.not_mem rfl)]

theorem ofLocale?_of_ofPlain? {x : Float}
    (h : ofPlain? (Text.trim s) = some x) : ofLocale? s = some x := by
  have hliteral : IsLiteral (Text.trim s) := isLiteral_of_ofPlain? h
  obtain ⟨before, after, hbefore, hafter, hs⟩ := Text.exists_eq_append_trim s
  have hbody : Text.unspaced (Text.trim s ++ after) = Text.trim s := by
    rw [Text.unspaced, List.filter_append, ← Text.unspaced, ← Text.unspaced,
      Text.unspaced_eq_nil hafter, List.append_nil,
      Text.unspaced_eq_self hliteral.allLiteral.isBlank_eq_false]
  have hne : Text.trim s ≠ [] := by
    intro hnil
    rw [hnil] at h
    contradiction
  have hread : ofLocale? (before ++ [] ++ (Text.trim s ++ after)) =
      ofCompact? (Text.unspaced (Text.trim s ++ after)) :=
    ofLocale?_eq_ofCompact? hbefore (List.mem_cons_self ..) (hbody.symm ▸ hne)
      (hbody.symm ▸ hliteral.allLiteral.noSymbol)
  rw [List.append_nil, ← List.append_assoc, ← hs, hbody] at hread
  rw [hread, hliteral.ofCompact?_eq, h]

end Chartbook.Number
