import Chartbook.Number.Digits
import Chartbook.Proofs.Text.Blank
import Mathlib.Algebra.Group.Nat.Defs

/-!
# Rows of digits

A number that fits into a width is written in exactly that many digits, and the
digits stand for the number.  Zeros before the digits change nothing; each zero
after them is a factor of ten.
-/

namespace Chartbook.Number

theorem isDigit_eq (c : Char) : isDigit c = c.isDigit := by
  simp [isDigit, Char.isDigit, Char.le_def, ge_iff_le]

theorem toNat_of_isDigit {c : Char} (h : isDigit c = true) :
    48 ≤ c.toNat ∧ c.toNat ≤ 57 := by
  simp only [isDigit, Bool.and_eq_true, decide_eq_true_eq, Char.le_def,
    UInt32.le_iff_toNat_le] at h
  exact h

theorem isBlank_of_isDigit {c : Char} (h : isDigit c = true) :
    Text.isBlank c = false := by
  have hrange := toNat_of_isDigit h
  simp only [Text.isBlank]
  grind

theorem isAlpha_of_isDigit {c : Char} (h : isDigit c = true) :
    c.isAlpha = false := by
  have hdigit := toNat_of_isDigit h
  refine Bool.eq_false_iff.mpr fun halpha => ?_
  have hletter := Text.toNat_of_isAlpha halpha
  omega

theorem isAlpha_of_toLower {c : Char} (h : c.toLower.isAlpha = true) :
    c.isAlpha = true := by
  cases hupper : c.isUpper with
  | true => exact Bool.or_eq_true_iff.mpr (.inl hupper)
  | false =>
      have hsame : c.toLower = c := dif_neg (of_decide_eq_false hupper)
      rwa [hsame] at h

theorem not_mem_of_digits {s : List Char} (h : ∀ c ∈ s, isDigit c = true)
    {x : Char} (hx : isDigit x = false) : x ∉ s := by
  intro hmem
  rw [h x hmem] at hx
  contradiction

theorem isDigit_of_mem_digits {c : Char} {n : Nat} (h : c ∈ digits n) :
    isDigit c = true := by
  rw [isDigit_eq]
  exact Nat.isDigit_of_mem_toDigits (by decide) (by decide) h

theorem digits_ne_nil (n : Nat) : digits n ≠ [] :=
  Nat.toDigits_ne_nil

theorem eq_zero_of_head?_digits {n : Nat}
    (h : (digits n).head? = some '0') : n = 0 := by
  induction n using Nat.strongRecOn with
  | ind n ih =>
      rcases Nat.lt_or_ge n 10 with hlt | hge
      · rw [digits, Nat.toDigits_of_lt_base hlt] at h
        exact Nat.digitChar_eq_zero.mp (Option.some.inj h)
      · rw [digits, Nat.toDigits_of_base_le (by decide) hge,
          List.head?_append,
          Option.or_of_isSome (by simp [Nat.toDigits_ne_nil])] at h
        have hzero := ih (n / 10) (Nat.div_lt_self (by omega) (by decide)) h
        omega

theorem digitsValue_digits (n : Nat) : digitsValue (digits n) = n :=
  Nat.ofDigitChars_ten_toDigits

theorem length_digits_le {n width : Nat} (hwidth : 0 < width)
    (h : n < 10 ^ width) : (digits n).length ≤ width :=
  (Nat.length_toDigits_le_iff (by decide) hwidth).mpr h

theorem isDigit_of_mem_padded {c : Char} {width n : Nat}
    (h : c ∈ padded width n) : isDigit c = true := by
  rcases List.mem_append.mp h with h | h
  · obtain rfl := List.eq_of_mem_replicate h
    rfl
  · exact isDigit_of_mem_digits h

theorem not_mem_padded {c : Char} (hc : isDigit c = false) (width n : Nat) :
    c ∉ padded width n :=
  not_mem_of_digits (fun _ => isDigit_of_mem_padded) hc

theorem length_padded {width n : Nat} (hwidth : 0 < width)
    (h : n < 10 ^ width) : (padded width n).length = width := by
  have hlength := length_digits_le hwidth h
  rw [padded, List.length_append, List.length_replicate]
  omega

theorem digitsValue_append (s s' : List Char) :
    digitsValue (s ++ s') = Nat.ofDigitChars 10 s' (digitsValue s) :=
  Nat.ofDigitChars_append 0

theorem digitsValue_append_zeros (n k : Nat) :
    digitsValue (digits n ++ List.replicate k '0') = n * 10 ^ k := by
  rw [digitsValue_append, digitsValue_digits, Nat.ofDigitChars_replicate_zero,
    Nat.mul_comm]

theorem digitsValue_zeros_append (k n : Nat) :
    digitsValue (List.replicate k '0' ++ digits n) = n := by
  have hzeros : digitsValue (List.replicate k '0') = 0 := by
    exact Nat.ofDigitChars_replicate_zero.trans (Nat.mul_zero _)
  rw [digitsValue_append, hzeros]
  exact digitsValue_digits n

theorem digitsValue_padded (width n : Nat) :
    digitsValue (padded width n) = n :=
  digitsValue_zeros_append ..

/-! ## The order of rows of digits -/

theorem digitsValue_append_eq (s s' : List Char) :
    digitsValue (s ++ s') =
      digitsValue s * 10 ^ s'.length + digitsValue s' := by
  rw [digitsValue_append, Nat.ofDigitChars_eq_ofDigitChars_zero, Nat.mul_comm]
  rfl

theorem digitsValue_cons (c : Char) (s : List Char) :
    digitsValue (c :: s) =
      (c.toNat - 48) * 10 ^ s.length + digitsValue s := by
  have happend := digitsValue_append_eq [c] s
  simpa [digitsValue] using happend

theorem digitsValue_lt {s : List Char} (h : ∀ c ∈ s, isDigit c = true) :
    digitsValue s < 10 ^ s.length := by
  induction s with
  | nil => simp [digitsValue]
  | cons c s ih =>
      have hc := toNat_of_isDigit (h c (by simp))
      have hs := ih fun d hd => h d (List.mem_cons_of_mem _ hd)
      have hle : (c.toNat - 48) * 10 ^ s.length ≤ 9 * 10 ^ s.length :=
        Nat.mul_le_mul_right _ (by omega)
      rw [digitsValue_cons, List.length_cons, Nat.pow_succ]
      omega

theorem append_lt_append {s s' : List Char} (h : ∀ c ∈ s, isDigit c = true)
    (h' : ∀ c ∈ s', isDigit c = true) (hlength : s.length = s'.length)
    (hlt : digitsValue s < digitsValue s') (t t' : List Char) :
    s ++ t < s' ++ t' := by
  induction s generalizing s' with
  | nil =>
      obtain rfl := List.eq_nil_of_length_eq_zero hlength.symm
      exact absurd hlt (Nat.lt_irrefl _)
  | cons c s ih =>
      obtain _ | ⟨c', s'⟩ := s'
      · simp at hlength
      · have hc := toNat_of_isDigit (h c (by simp))
        have hc' := toNat_of_isDigit (h' c' (by simp))
        have hs' := digitsValue_lt fun d hd => h' d (List.mem_cons_of_mem _ hd)
        have hlength : s.length = s'.length := by simpa using hlength
        rw [digitsValue_cons, digitsValue_cons, hlength] at hlt
        rw [List.cons_append, List.cons_append, List.cons_lt_cons_iff]
        rcases Nat.lt_trichotomy c.toNat c'.toNat with hless | heq | hmore
        · exact .inl (UInt32.lt_iff_toNat_lt.mpr hless)
        · refine .inr ⟨Char.toNat_inj.mp heq, ih
            (fun d hd => h d (List.mem_cons_of_mem _ hd))
            (fun d hd => h' d (List.mem_cons_of_mem _ hd)) hlength ?_⟩
          rw [heq] at hlt
          exact Nat.lt_of_add_lt_add_left hlt
        · have hle : (c'.toNat - 48 + 1) * 10 ^ s'.length ≤
              (c.toNat - 48) * 10 ^ s'.length :=
            Nat.mul_le_mul_right _ (by omega)
          rw [Nat.add_mul] at hle
          omega

private theorem eq_of_digitsValue_eq {s s' : List Char}
    (h : ∀ c ∈ s, isDigit c = true) (h' : ∀ c ∈ s', isDigit c = true)
    (hlength : s.length = s'.length) (hvalue : digitsValue s = digitsValue s') :
    s = s' := by
  induction s generalizing s' with
  | nil => exact (List.eq_nil_of_length_eq_zero hlength.symm).symm
  | cons c s ih =>
      obtain _ | ⟨c', s'⟩ := s'
      · simp at hlength
      · simp only [List.forall_mem_cons] at h h'
        simp only [List.length_cons, Nat.add_right_cancel_iff] at hlength
        have hc := toNat_of_isDigit h.1
        have hc' := toNat_of_isDigit h'.1
        have hs := digitsValue_lt h.2
        have hs' := digitsValue_lt h'.2
        rw [digitsValue_cons, digitsValue_cons, hlength] at hvalue
        rw [hlength] at hs
        have hfirst : c.toNat - 48 = c'.toNat - 48 := by
          have hdiv := congrArg (· / 10 ^ s'.length) hvalue
          have hpos : 0 < 10 ^ s'.length := Nat.pow_pos (by decide)
          simpa [Nat.mul_comm _ (10 ^ s'.length), Nat.mul_add_div hpos,
            Nat.div_eq_of_lt hs, Nat.div_eq_of_lt hs'] using hdiv
        have hchar : c = c' := Char.toNat_inj.mp (by omega)
        rw [hfirst, Nat.add_left_cancel_iff] at hvalue
        rw [hchar, ih h.2 h'.2 hlength hvalue]

theorem padded_digitsValue {width : Nat} {s : List Char} (hwidth : 0 < width)
    (hlength : s.length = width) (h : ∀ c ∈ s, isDigit c = true) :
    padded width (digitsValue s) = s := by
  have hlt := digitsValue_lt h
  rw [hlength] at hlt
  exact eq_of_digitsValue_eq (fun _ => isDigit_of_mem_padded) h
    ((length_padded hwidth hlt).trans hlength.symm) (digitsValue_padded ..)

end Chartbook.Number
