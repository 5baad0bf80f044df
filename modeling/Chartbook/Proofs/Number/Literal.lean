import Chartbook.Number.Literal
import Chartbook.Proofs.Number.Digits
import Chartbook.Proofs.Text.Blank

/-!
# Literals

A numeral is digits with at most one point among them.  A literal is a sign
before a word, or a sign before digits, a point with digits and a power of ten.
So only few characters stand in a literal, and one without letters has at most
one point and a minus sign only in front.
-/

namespace Chartbook.Number

abbrev AllDigits (s : List Char) : Prop := ∀ c ∈ s, isDigit c = true

theorem allDigits_zeros (n : Nat) : AllDigits (List.replicate n '0') := by
  intro c hc
  rw [List.eq_of_mem_replicate hc]
  rfl

theorem AllDigits.append {s s' : List Char} (h : AllDigits s)
    (h' : AllDigits s') : AllDigits (s ++ s') :=
  List.forall_mem_append.mpr ⟨h, h'⟩

/-! ## Numerals -/

/-- Digits, perhaps with a point among them, and the decimal they stand for. -/
inductive Numeral : List Char → Decimal → Prop where
  | whole {s : List Char} (hne : s ≠ []) (h : AllDigits s) :
      Numeral s ⟨digitsValue s, 0⟩
  | point {s fraction : List Char} (hne : s ≠ []) (h : AllDigits s)
      (hfraction : AllDigits fraction) :
      Numeral (s ++ '.' :: fraction)
        ⟨digitsValue (s ++ fraction), -fraction.length⟩

theorem spanDigits_append {s rest : List Char} (h : AllDigits s)
    (hrest : ∀ c ∈ rest.head?, isDigit c = false) :
    spanDigits (s ++ rest) = (s, rest) := by
  rw [spanDigits, List.takeWhile_append_of_pos h,
    List.dropWhile_append_of_pos h]
  cases rest with
  | nil => rw [List.takeWhile_nil, List.dropWhile_nil, List.append_nil]
  | cons c rest =>
      have hc : ¬isDigit c = true := by
        rw [hrest c rfl]
        exact Bool.false_ne_true
      rw [List.takeWhile_cons_of_neg hc, List.dropWhile_cons_of_neg hc,
        List.append_nil]

private theorem spanDigits_of_allDigits {s : List Char} (h : AllDigits s) :
    spanDigits s = (s, []) := by
  have hspan := @spanDigits_append s [] h nofun
  rwa [List.append_nil] at hspan

private theorem spanDigits_append_point {s : List Char} (h : AllDigits s)
    (rest : List Char) : spanDigits (s ++ '.' :: rest) = (s, '.' :: rest) :=
  spanDigits_append h fun c hc => by
    cases hc
    rfl

namespace Numeral

variable {s : List Char} {d : Decimal}

private theorem unsigned?_eq (h : Numeral s d) : unsigned? s = some d := by
  cases h with
  | whole hne h =>
      rw [unsigned?, spanDigits_of_allDigits h]
      simp [spanFraction, exponent?, hne]
  | point hne h hfraction =>
      rw [unsigned?, spanDigits_append_point h]
      simp [spanFraction, spanDigits_of_allDigits hfraction, exponent?, hne]

theorem exists_head (h : Numeral s d) :
    ∃ c rest, s = c :: rest ∧ isDigit c = true := by
  cases h with
  | whole hne h =>
      obtain ⟨c, rest, rfl⟩ := List.exists_cons_of_ne_nil hne
      exact ⟨c, rest, rfl, h c (by simp)⟩
  | point hne h hfraction =>
      obtain ⟨c, rest, rfl⟩ := List.exists_cons_of_ne_nil hne
      exact ⟨c, _, rfl, h c (by simp)⟩

theorem zeroPoint (h : AllDigits s) :
    Numeral ('0' :: '.' :: s) ⟨digitsValue s, -s.length⟩ :=
  .point (List.cons_ne_nil _ _) (allDigits_zeros 1) h

end Numeral

/-! ## Signed numerals -/

theorem toLower_of_isDigit {c : Char} (h : isDigit c = true) :
    c.toLower = c := by
  have hrange : c.val.toNat ≤ 57 := (toNat_of_isDigit h).2
  refine dif_neg fun hupper => ?_
  have hletter : 65 ≤ c.val.toNat := UInt32.le_iff_toNat_le.mp hupper.1
  omega

theorem ofLiteral?_signed {s : List Char} {d : Decimal} (h : Numeral s d)
    (negative : Bool) :
    ofLiteral? ((if negative then ['-'] else []) ++ s) =
      some (d.toFloat negative) := by
  obtain ⟨c, rest, rfl, hc⟩ := h.exists_head
  have hne : ∀ letter, isDigit letter = false → c ≠ letter := by
    rintro letter hletter rfl
    rw [hc] at hletter
    contradiction
  have hsign : spanSign ((if negative then ['-'] else []) ++ c :: rest) =
      (negative, c :: rest) := by
    cases negative with
    | false => simp [spanSign, hne '-' rfl, hne '+' rfl]
    | true => rfl
  have hlower : Text.asciiLower (c :: rest) = c :: Text.asciiLower rest := by
    rw [Text.asciiLower, List.map_cons, toLower_of_isDigit hc]
    rfl
  rw [ofLiteral?, hsign]
  dsimp only
  rw [hlower, h.unsigned?_eq]
  split
  · rename_i heq
    exact absurd (List.cons.inj heq).1 (hne 'i' rfl)
  · rename_i heq
    exact absurd (List.cons.inj heq).1 (hne 'i' rfl)
  · rename_i heq
    exact absurd (List.cons.inj heq).1 (hne 'n' rfl)
  · rfl

theorem ofLiteral?_plus {s : List Char} {d : Decimal} (h : Numeral s d) :
    ofLiteral? ('+' :: s) = some (d.toFloat false) := by
  have hsign : spanSign s = (false, s) := by
    obtain ⟨c, rest, rfl, hc⟩ := h.exists_head
    rw [spanSign]
    · rintro rest ⟨⟩
      contradiction
    · rintro rest ⟨⟩
      contradiction
  have hunsigned : ofLiteral? s = some (d.toFloat false) :=
    ofLiteral?_signed h false
  rw [ofLiteral?, hsign] at hunsigned
  rwa [ofLiteral?, spanSign]

/-! ## The texts of literals -/

inductive IsSign : List Char → Prop
  | absent : IsSign []
  | minus : IsSign ['-']
  | plus : IsSign ['+']

inductive IsFraction : List Char → Prop
  | absent : IsFraction []
  | point {ds : List Char} (h : AllDigits ds) : IsFraction ('.' :: ds)

inductive IsPower : List Char → Prop
  | absent : IsPower []
  | scaled {e : Char} {sign ds : List Char} (he : e = 'e' ∨ e = 'E')
      (hsign : IsSign sign) (h : AllDigits ds) : IsPower (e :: (sign ++ ds))

def literalWords : List (List Char) :=
  [['i', 'n', 'f'], ['i', 'n', 'f', 'i', 'n', 'i', 't', 'y'], ['n', 'a', 'n']]

/-- What a literal consists of. -/
inductive IsLiteral : List Char → Prop
  | word {sign s : List Char} (hsign : IsSign sign)
      (h : Text.asciiLower s ∈ literalWords) : IsLiteral (sign ++ s)
  | number {sign ds fraction power : List Char} (hsign : IsSign sign)
      (h : AllDigits ds) (hfraction : IsFraction fraction)
      (hpower : IsPower power) :
      IsLiteral (sign ++ (ds ++ (fraction ++ power)))

section Shape

variable {s : List Char}

theorem exists_sign (s : List Char) :
    ∃ sign, IsSign sign ∧ s = sign ++ (spanSign s).2 := by
  rw [spanSign.eq_def]
  split
  · exact ⟨_, .minus, rfl⟩
  · exact ⟨_, .plus, rfl⟩
  · exact ⟨_, .absent, rfl⟩

theorem eq_spanDigits_append (s : List Char) :
    s = (spanDigits s).1 ++ (spanDigits s).2 :=
  List.takeWhile_append_dropWhile.symm

theorem allDigits_spanDigits (s : List Char) : AllDigits (spanDigits s).1 :=
  fun _ hc => List.mem_takeWhile_imp hc

private theorem exists_fraction (s : List Char) :
    ∃ fraction, IsFraction fraction ∧ s = fraction ++ (spanFraction s).2 := by
  rw [spanFraction.eq_def]
  split
  · rename_i rest
    refine ⟨_, .point (allDigits_spanDigits rest), ?_⟩
    rw [List.cons_append, ← eq_spanDigits_append]
  · exact ⟨_, .absent, rfl⟩

private theorem isPower_of_exponent? {e : Int} (h : exponent? s = some e) :
    IsPower s := by
  cases s with
  | nil => exact .absent
  | cons c rest =>
      rw [exponent?] at h
      split at h
      · rename_i hletter
        obtain ⟨sign, hsign, hrest⟩ := exists_sign rest
        dsimp only at h
        split at h
        · rename_i hdigits
          rw [hrest]
          exact .scaled hletter hsign (List.all_eq_true.mp hdigits.2)
        · contradiction
      · contradiction

private theorem isLiteral_of_unsigned? {sign : List Char} {d : Decimal}
    (hsign : IsSign sign) (h : unsigned? s = some d) :
    IsLiteral (sign ++ s) := by
  rw [unsigned?] at h
  dsimp only at h
  split at h
  · contradiction
  · obtain ⟨e, he, -⟩ := Option.map_eq_some_iff.mp h
    obtain ⟨fraction, hfraction, hrest⟩ := exists_fraction (spanDigits s).2
    rw [eq_spanDigits_append s, hrest]
    exact .number hsign (allDigits_spanDigits s) hfraction
      (isPower_of_exponent? he)

private theorem isLiteral_of_ofLiteral? {x : Float}
    (h : ofLiteral? s = some x) :
    IsLiteral s := by
  obtain ⟨sign, hsign, hs⟩ := exists_sign s
  rw [hs]
  rw [ofLiteral?] at h
  dsimp only at h
  split at h
  · rename_i hword
    exact .word hsign (by simp [hword, literalWords])
  · rename_i hword
    exact .word hsign (by simp [hword, literalWords])
  · rename_i hword
    exact .word hsign (by simp [hword, literalWords])
  · obtain ⟨d, hd, -⟩ := Option.map_eq_some_iff.mp h
    exact isLiteral_of_unsigned? hsign hd

theorem isLiteral_of_ofPlain? {x : Float} (h : ofPlain? s = some x) :
    IsLiteral s :=
  isLiteral_of_ofLiteral? (Option.filter_eq_some_iff.mp h).1

end Shape

/-! ## The characters of literals -/

def isLowerLiteralChar (c : Char) : Bool :=
  isDigit c || ['-', '+', '.', 'i', 'n', 'f', 't', 'y', 'a', 'e'].contains c

abbrev AllLiteral (s : List Char) : Prop :=
  ∀ c ∈ s, isLowerLiteralChar c.toLower = true

theorem AllLiteral.append {s s' : List Char} (h : AllLiteral s)
    (h' : AllLiteral s') : AllLiteral (s ++ s') :=
  List.forall_mem_append.mpr ⟨h, h'⟩

theorem AllDigits.allLiteral {s : List Char} (h : AllDigits s) :
    AllLiteral s := fun c hc => by
  rw [toLower_of_isDigit (h c hc), isLowerLiteralChar, h c hc]
  rfl

theorem IsSign.allLiteral {s : List Char} (h : IsSign s) : AllLiteral s := by
  cases h with
  | absent => exact List.forall_mem_nil _
  | minus => exact List.forall_mem_singleton.mpr rfl
  | plus => exact List.forall_mem_singleton.mpr rfl

theorem IsLiteral.allLiteral {s : List Char} (h : IsLiteral s) :
    AllLiteral s := by
  cases h with
  | @word sign s hsign h =>
      refine hsign.allLiteral.append fun c hc => ?_
      have hwords : (literalWords.all fun w => w.all isLowerLiteralChar) =
          true := by
        decide
      have hchars := List.all_eq_true.mp hwords _ h
      exact List.all_eq_true.mp hchars _ (List.mem_map_of_mem hc)
  | number hsign h hfraction hpower =>
      refine hsign.allLiteral.append (h.allLiteral.append (.append ?_ ?_))
      · cases hfraction with
        | absent => exact List.forall_mem_nil _
        | point h => exact List.forall_mem_cons.mpr ⟨rfl, h.allLiteral⟩
      · cases hpower with
        | absent => exact List.forall_mem_nil _
        | scaled he hsign h =>
            refine List.forall_mem_cons.mpr ⟨?_, hsign.allLiteral.append
              h.allLiteral⟩
            rcases he with rfl | rfl <;> rfl

section Chars

variable {s : List Char} {c : Char}

theorem AllLiteral.not_mem (h : AllLiteral s)
    (hc : isLowerLiteralChar c.toLower = false) : c ∉ s := by
  intro hmem
  rw [h c hmem] at hc
  contradiction

theorem AllLiteral.isBlank_eq_false (h : AllLiteral s) :
    ∀ c ∈ s, Text.isBlank c = false := by
  intro c hc
  refine Bool.eq_false_iff.mpr fun hblank => ?_
  have hchar := h c hc
  rw [Text.toLower_of_isBlank hblank, isLowerLiteralChar,
    Bool.or_eq_true_iff] at hchar
  rcases hchar with hdigit | hother
  · rw [isBlank_of_isDigit hdigit] at hblank
    contradiction
  · have hnone : (['-', '+', '.', 'i', 'n', 'f', 't', 'y', 'a', 'e'].all
        fun x => !Text.isBlank x) = true := by
      decide
    have hvisible := List.all_eq_true.mp hnone c (by simpa using hother)
    rw [hblank] at hvisible
    contradiction

theorem IsFraction.count_point_le (h : IsFraction s) : s.count '.' ≤ 1 := by
  cases h with
  | absent => exact Nat.zero_le 1
  | point h =>
      rw [List.count_cons_self,
        List.count_eq_zero.mpr (not_mem_of_digits h rfl)]

theorem IsFraction.minus_not_mem (h : IsFraction s) : '-' ∉ s := by
  cases h with
  | absent => exact List.not_mem_nil
  | point h =>
      rw [List.mem_cons, not_or]
      exact ⟨by decide, not_mem_of_digits h rfl⟩

theorem IsLiteral.exists_letter_or (h : IsLiteral s) :
    (∃ c ∈ s, c.isAlpha = true) ∨ s.count '.' ≤ 1 ∧ '-' ∉ s.tail := by
  cases h with
  | @word sign s hsign h =>
      left
      have hletters : (literalWords.all fun w => w.any Char.isAlpha) =
          true := by
        decide
      obtain ⟨c, hc, halpha⟩ :=
        List.any_eq_true.mp (List.all_eq_true.mp hletters _ h)
      obtain ⟨x, hx, rfl⟩ := List.mem_map.mp hc
      exact ⟨x, List.mem_append_right _ hx, isAlpha_of_toLower halpha⟩
  | @number sign ds fraction power hsign h hfraction hpower =>
      cases hpower with
      | @scaled e _ _ he _ _ =>
          left
          refine ⟨e, by simp, ?_⟩
          rcases he with rfl | rfl <;> rfl
      | absent =>
          right
          rw [List.append_nil]
          have hpoint : (ds ++ fraction).count '.' ≤ 1 := by
            rw [List.count_append, List.count_eq_zero.mpr
              (not_mem_of_digits h rfl), Nat.zero_add]
            exact hfraction.count_point_le
          have hminus : '-' ∉ ds ++ fraction := by
            rw [List.mem_append, not_or]
            exact ⟨not_mem_of_digits h rfl, hfraction.minus_not_mem⟩
          cases hsign with
          | absent =>
              exact ⟨hpoint, fun hmem => hminus (List.mem_of_mem_tail hmem)⟩
          | minus => exact ⟨by simpa using hpoint, hminus⟩
          | plus => exact ⟨by simpa using hpoint, hminus⟩

end Chars

end Chartbook.Number
