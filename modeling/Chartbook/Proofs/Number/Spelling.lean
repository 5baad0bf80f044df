import Chartbook.Proofs.Number.Locale
import Chartbook.Proofs.Number.Nearest

/-!
# Spellings of a number

A figure is written with its digits in groups and a mark before its fraction.
The mark that comes last is the decimal one, so both ways of writing go back to
the literal of the figure, whatever symbol and white space come with them.
-/

namespace Chartbook.Number

/-- Whole digits cut into groups, and the digits of a fraction. -/
structure Figure where
  sign : List Char
  groups : List (List Char)
  fraction : List Char
  isSign : IsSign sign
  digits_groups : ∀ group ∈ groups, AllDigits group
  flatten_ne_nil : groups.flatten ≠ []
  digits_fraction : AllDigits fraction

inductive Style where
  | decimalComma
  | decimalPoint

def Style.groupMark : Style → Char
  | .decimalComma => '.'
  | .decimalPoint => ','

def Style.decimalMark : Style → Char
  | .decimalComma => ','
  | .decimalPoint => '.'

namespace Figure

/-- The digits without groups, with a mark before the fraction. -/
def ungrouped (n : Figure) (mark : Char) : List Char :=
  n.sign ++ (n.groups.flatten ++ mark :: n.fraction)

def literal (n : Figure) : List Char := n.ungrouped '.'

def written (n : Figure) (style : Style) : List Char :=
  n.sign ++ ([style.groupMark].intercalate n.groups ++
    style.decimalMark :: n.fraction)

/-- The float nearest to the decimal number. -/
def value (n : Figure) : Float :=
  Decimal.toFloat
    ⟨digitsValue (n.groups.flatten ++ n.fraction), -n.fraction.length⟩
    (n.sign = ['-'])

end Figure

/-- A text with at most one symbol in front and white space put in anywhere. -/
inductive IsSpelling (s : List Char) : List Char → Prop
  | intro {before body : List Char} {symbol : String}
      (hbefore : Text.AllBlank before)
      (hsymbol : symbol ∈ ["", "R$", "US$", "€", "£"])
      (hbody : Text.unspaced body = s) :
      IsSpelling s (before ++ symbol.toList ++ body)

/-! ## The literal of a figure -/

theorem IsSign.subset {sign : List Char} (h : IsSign sign) :
    sign ⊆ ['-', '+'] := by
  cases h <;> decide

theorem IsSign.ofLiteral?_append {sign s : List Char} {d : Decimal}
    (h : IsSign sign) (hs : Numeral s d) :
    ofLiteral? (sign ++ s) = some (d.toFloat (sign = ['-'])) := by
  cases h with
  | absent => exact ofLiteral?_signed hs false
  | minus => exact ofLiteral?_signed hs true
  | plus => exact ofLiteral?_plus hs

namespace Figure

variable (n : Figure) {c : Char}

theorem allDigits_flatten : AllDigits n.groups.flatten := fun _ hc => by
  obtain ⟨group, hgroup, hc⟩ := List.mem_flatten.mp hc
  exact n.digits_groups group hgroup _ hc

theorem ofPlain?_literal : ofPlain? n.literal = some n.value := by
  have hnumeral : Numeral (n.groups.flatten ++ '.' :: n.fraction) _ :=
    .point n.flatten_ne_nil n.allDigits_flatten n.digits_fraction
  have hliteral : ofLiteral? n.literal = some n.value :=
    n.isSign.ofLiteral?_append hnumeral
  have hnumber : n.value.isNaN = false := Decimal.isNaN_toFloat _ _
  rw [ofPlain?, hliteral, Option.filter_some, if_pos (by rw [hnumber]; rfl)]

/-! ## From the written form back to the literal -/

theorem not_mem_parts (hdigit : isDigit c = false) (hsign : c ∉ ['-', '+']) :
    c ∉ n.sign ∧ (∀ group ∈ n.groups, c ∉ group) ∧ c ∉ n.fraction :=
  ⟨fun hmem => hsign (n.isSign.subset hmem),
    fun group hgroup => not_mem_of_digits (n.digits_groups group hgroup) hdigit,
    not_mem_of_digits n.digits_fraction hdigit⟩

theorem not_mem_written {style : Style} (hdigit : isDigit c = false)
    (hsign : c ∉ ['-', '+']) (hmark : c ∉ ['.', ',']) :
    c ∉ n.written style := by
  have hmarks : c ≠ style.groupMark ∧ c ≠ style.decimalMark := by
    cases style <;> simpa [Style.groupMark, Style.decimalMark, and_comm]
      using hmark
  obtain ⟨hsign, hgroups, hfraction⟩ := n.not_mem_parts hdigit hsign
  rw [written, List.mem_append, List.mem_append, List.mem_cons, not_or, not_or,
    not_or]
  exact ⟨hsign, (Text.not_mem_intercalate_iff hmarks.1).mpr hgroups, hmarks.2,
    hfraction⟩

theorem filter_written (style : Style) :
    (n.written style).filter (· ≠ style.groupMark) =
      n.ungrouped style.decimalMark := by
  have hmark : isDigit style.groupMark = false ∧
      style.groupMark ∉ ['-', '+'] ∧
      style.decimalMark ≠ style.groupMark := by
    cases style <;> decide
  obtain ⟨hsign, hgroups, hfraction⟩ := n.not_mem_parts hmark.1 hmark.2.1
  have hrest : style.groupMark ∉ style.decimalMark :: n.fraction :=
    List.not_mem_cons_of_ne_of_not_mem hmark.2.2.symm hfraction
  rw [written, List.filter_append, List.filter_append,
    Text.filter_ne_eq_self hsign, Text.filter_intercalate hgroups,
    Text.filter_ne_eq_self hrest, ungrouped]

theorem commaToPoint_written :
    commaToPoint (n.written .decimalComma) = n.literal := by
  have hfilter : (n.written .decimalComma).filter (· ≠ '.') =
      n.ungrouped ',' := n.filter_written .decimalComma
  have hself {s : List Char} (h : ',' ∉ s) :
      (s.map fun c => if c = ',' then '.' else c) = s :=
    (List.map_congr_left fun c hc =>
      if_neg (ne_of_mem_of_not_mem hc h)).trans (List.map_id s)
  obtain ⟨hsign, -, hfraction⟩ := n.not_mem_parts (c := ',') rfl (by decide)
  have hwhole : ',' ∉ n.groups.flatten :=
    not_mem_of_digits n.allDigits_flatten rfl
  rw [commaToPoint, hfilter, ungrouped, List.map_append, List.map_append,
    List.map_cons, if_pos rfl, hself hsign, hself hwhole, hself hfraction]
  rfl

private theorem lastSeparator?_written (style : Style) :
    lastSeparator? (n.written style) = some style.decimalMark := by
  have hfraction : n.fraction.reverse.find? (fun c => c == ',' || c == '.') =
      none := by
    rw [List.find?_eq_none]
    intro c hc
    have hdigit := n.digits_fraction c (List.mem_reverse.mp hc)
    rintro hmark
    rcases Bool.or_eq_true_iff.mp hmark with h | h <;>
      rw [eq_of_beq h] at hdigit <;> contradiction
  have hmark : (style.decimalMark == ',' || style.decimalMark == '.') =
      true := by
    cases style <;> rfl
  rw [lastSeparator?, written, List.reverse_append, List.reverse_append,
    List.reverse_cons, List.append_assoc, List.append_assoc, List.find?_append,
    hfraction, Option.none_or, List.singleton_append]
  exact List.find?_cons_of_pos hmark

private theorem toPointForm_written (style : Style) :
    toPointForm (n.written style) = n.literal := by
  rw [toPointForm, n.lastSeparator?_written style]
  cases style with
  | decimalComma => exact n.commaToPoint_written
  | decimalPoint => exact n.filter_written .decimalPoint

private theorem ofCompact?_written (style : Style) :
    ofCompact? (n.written style) = some n.value := by
  have hpercent : '%' ∉ n.written style :=
    n.not_mem_written rfl (by decide) (by decide)
  rw [ofCompact?, stripPercent?_eq_none hpercent]
  exact (congrArg ofPlain? (n.toPointForm_written style)).trans
    n.ofPlain?_literal

private theorem ofCompact?_percent :
    ofCompact? (n.written .decimalComma ++ ['%']) = some (n.value / 100) := by
  rw [ofCompact?, stripPercent?_concat]
  dsimp only
  rw [n.commaToPoint_written, n.ofPlain?_literal, Option.map_some]

end Figure

/-! ## Symbols and white space -/

theorem IsSpelling.ofLocale?_eq {s t : List Char} (h : IsSpelling s t)
    (hne : s ≠ []) (hno : NoSymbol s) : ofLocale? t = ofCompact? s := by
  obtain ⟨hbefore, hsymbol, rfl⟩ := h
  have hsymbols : ∀ symbol ∈ ["", "R$", "US$", "€", "£"],
      symbol.toList ∈ [] :: currencySymbols := by
    decide
  exact ofLocale?_eq_ofCompact? hbefore (hsymbols _ hsymbol) hne hno

theorem Figure.noSymbol_written (n : Figure) (style : Style) :
    NoSymbol (n.written style) := by
  have hstarts : ∀ c ∈ symbolStarts, isDigit c = false ∧ c ∉ ['-', '+'] ∧
      c ∉ ['.', ','] := by
    simp [isDigit]
  intro c hc
  obtain ⟨hdigit, hsign, hmark⟩ := hstarts c hc
  exact n.not_mem_written hdigit hsign hmark

/-- Groups, symbol and white space leave a number as its literal denotes it, in
both ways of writing; a percent sign divides it by a hundred. -/
theorem Figure.ofLocale?_of_spelling (n : Figure) :
    ofPlain? n.literal = some n.value ∧
      (∀ style s, IsSpelling (n.written style) s →
        ofLocale? s = some n.value) ∧
      ∀ s, IsSpelling (n.written .decimalComma ++ ['%']) s →
        ofLocale? s = some (n.value / 100) := by
  refine ⟨n.ofPlain?_literal, fun style s h => ?_, fun s h => ?_⟩
  · have hne : n.written style ≠ [] := by simp [written]
    rw [h.ofLocale?_eq hne (n.noSymbol_written style),
      n.ofCompact?_written style]
  · have hno : NoSymbol (n.written .decimalComma ++ ['%']) := fun c hc => by
      have hpercent : c ≠ '%' := ne_of_mem_of_not_mem hc (by decide)
      rw [List.mem_append, List.mem_singleton, not_or]
      exact ⟨n.noSymbol_written _ c hc, hpercent⟩
    rw [h.ofLocale?_eq (by simp) hno, n.ofCompact?_percent]

theorem Figure.ofLocale?_of_spelling_reais :
    IsSpelling "-1.234,5".toList "\u00a0R$ -1.234, 5 ".toList ∧
      IsSpelling "-1.234,5%".toList "\u2009-1 .234,5 %".toList ∧
      ofLocale? "\u00a0R$ -1.234, 5 ".toList = ofPlain? "-1234.5".toList ∧
      ofLocale? "\u2009-1 .234,5 %".toList =
        (ofPlain? "-1234.5".toList).map (· / 100) := by
  let n : Figure := ⟨['-'], [['1'], ['2', '3', '4']], ['5'], .minus,
    by simp [AllDigits, isDigit], by decide, List.all_eq_true.mp rfl⟩
  have hplain : IsSpelling (n.written .decimalComma)
      "\u00a0R$ -1.234, 5 ".toList :=
    @IsSpelling.intro _ ['\u00a0'] " -1.234, 5 ".toList "R$"
      (List.all_eq_true.mp rfl) (by decide) rfl
  have hpercent : IsSpelling (n.written .decimalComma ++ ['%'])
      "\u2009-1 .234,5 %".toList :=
    @IsSpelling.intro _ ['\u2009'] "-1 .234,5 %".toList ""
      (List.all_eq_true.mp rfl) (by decide) rfl
  obtain ⟨hliteral, hread, hshare⟩ := n.ofLocale?_of_spelling
  have hvalue : ofPlain? "-1234.5".toList = some n.value := hliteral
  rw [hvalue]
  exact ⟨hplain, hpercent, hread _ _ hplain, hshare _ hpercent⟩

end Chartbook.Number
