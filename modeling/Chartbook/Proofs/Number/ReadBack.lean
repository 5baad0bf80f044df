import Chartbook.Proofs.Number.Locale
import Chartbook.Proofs.Number.Nearest

/-!
# Numbers that read back from their text

The text of a number is a numeral with an optional sign, or a word.  None of the
spellings of a locale changes it, so every number is read back as itself, bit
for bit.
-/

namespace Chartbook.Number

/-! ## The numeral of a decimal -/

private theorem nearest_scaled {n : Nat} {e : ℤ} (hn : n ≠ 0) (hlow : 0 ≤ e)
    (hhigh : e ≤ 400) :
    (Decimal.mk (n * 10 ^ e.toNat) 0).nearest = (Decimal.mk n e).nearest := by
  have hscaled : n * 10 ^ e.toNat ≠ 0 := by positivity
  have hzero : (-e).toNat = 0 := by omega
  rw [Decimal.nearest, Decimal.nearest, if_neg hscaled, if_neg hn,
    if_neg (by dsimp only; omega), if_neg (by dsimp only; omega),
    if_neg (by dsimp only; omega), if_neg (by dsimp only; omega)]
  simp [Decimal.numerator, Decimal.denominator, hzero]

private theorem exists_numeral_plain {d : Decimal}
    (hcoefficient : d.coefficient ≠ 0) (hexponent : d.exponent ≤ 400) :
    ∃ d', Numeral d.plain d' ∧ d'.nearest = d.nearest := by
  obtain ⟨n, e⟩ := d
  have hdigits : AllDigits (digits n) := fun c => isDigit_of_mem_digits
  have hne := digits_ne_nil n
  rw [Decimal.plain]
  dsimp only at hcoefficient hexponent ⊢
  split
  · refine ⟨_, .whole (by simp [hne])
      (hdigits.append (allDigits_zeros _)), ?_⟩
    rw [digitsValue_append_zeros]
    exact nearest_scaled hcoefficient (by omega) hexponent
  · split
    · rename_i hplaces hlength
      refine ⟨_, .point ?_ (fun c hc => hdigits c (List.mem_of_mem_take hc))
        (fun c hc => hdigits c (List.mem_of_mem_drop hc)), ?_⟩
      · rw [ne_eq, List.take_eq_nil_iff, not_or]
        exact ⟨by omega, hne⟩
      · have hlast : -(((digits n).drop
            ((digits n).length - (-e).toNat)).length : ℤ) = e := by
          rw [List.length_drop]
          omega
        rw [List.take_append_drop, digitsValue_digits, hlast]
    · rename_i hplaces hlength
      have hnumeral := Numeral.zeroPoint <|
        (allDigits_zeros ((-e).toNat - (digits n).length)).append hdigits
      have hlast : -((List.replicate ((-e).toNat - (digits n).length) '0' ++
          digits n).length : ℤ) = e := by
        rw [List.length_append, List.length_replicate]
        omega
      refine ⟨_, hnumeral, ?_⟩
      rw [digitsValue_zeros_append, hlast]

/-! ## The text of a number -/

private theorem exists_numeral_shortest {b : Nat} (hpos : 0 < b)
    (hfinite : b < infinite) :
    ∃ d, Numeral (shortest .upward b).plain d ∧ d.nearest = b := by
  have hnearest := nearest_shortest .upward hpos hfinite
  have hcoefficient : (shortest .upward b).coefficient ≠ 0 := by
    intro hzero
    rw [Decimal.nearest, if_pos hzero] at hnearest
    omega
  have hexponent : (shortest .upward b).exponent ≤ 400 := by
    refine not_lt.mp fun hlarge => ?_
    rw [Decimal.nearest, if_neg hcoefficient, if_pos hlarge] at hnearest
    omega
  obtain ⟨d, hnumeral, heq⟩ := exists_numeral_plain hcoefficient hexponent
  exact ⟨d, hnumeral, heq.trans hnearest⟩

private theorem plain_cases {x : Float} (hx : x.isNaN = false) :
    plain x = (if isNegative x then ['-'] else []) ++ ['i', 'n', 'f'] ∧
        magnitude x = infinite ∨
      ∃ s d, plain x = (if isNegative x then ['-'] else []) ++ s ∧
        Numeral s d ∧ d.nearest = magnitude x := by
  have hle : magnitude x ≤ infinite := by
    refine not_lt.mp fun hlarge => ?_
    rw [isNaN_iff.mpr hlarge] at hx
    contradiction
  rw [plain]
  simp only [hx, Bool.false_eq_true, if_false]
  by_cases hzero : magnitude x = 0
  · refine .inr ⟨['0'], _, ?_, .whole (by simp) (allDigits_zeros 1), ?_⟩
    · rw [if_pos hzero]
    · rw [hzero]
      rfl
  · by_cases hinfinite : magnitude x = infinite
    · refine .inl ⟨?_, hinfinite⟩
      rw [if_neg hzero, if_pos hinfinite]
    · obtain ⟨d, hnumeral, heq⟩ := exists_numeral_shortest
        (Nat.pos_of_ne_zero hzero) (lt_of_le_of_ne hle hinfinite)
      refine .inr ⟨_, d, ?_, hnumeral, heq⟩
      rw [if_neg hzero, if_neg hinfinite]

theorem ofPlain?_plain {x : Float} (hx : x.isNaN = false) :
    ofPlain? (plain x) = some x := by
  have hliteral : ofLiteral? (plain x) = some x := by
    rcases plain_cases hx with ⟨heq, hinfinite⟩ | ⟨s, d, heq, hnumeral, hd⟩
    · have hword : ∀ negative : Bool,
          ofLiteral? ((if negative then ['-'] else []) ++ ['i', 'n', 'f']) =
            some (ofMagnitude negative infinite) := by
        intro negative
        cases negative <;> rfl
      rw [heq, hword, ← hinfinite, ofMagnitude_magnitude]
    · rw [heq, ofLiteral?_signed hnumeral, Decimal.toFloat, hd,
        ofMagnitude_magnitude]
  rw [ofPlain?, hliteral, Option.filter_some, if_pos (by rw [hx]; rfl)]

theorem ofPlain?_plain_eq (x : Float) :
    ofPlain? (plain x) = if x.isNaN then none else some x := by
  cases hx : x.isNaN with
  | true =>
      rw [plain, if_pos hx, if_pos rfl]
      decide
  | false => rw [ofPlain?_plain hx, if_neg Bool.false_ne_true]

theorem eq_of_text_eq {x y : Float} (hx : x.isNaN = false)
    (hy : y.isNaN = false) (h : text x = text y) : x = y := by
  have hplain : plain x = plain y := String.ofList_injective h
  have hread := ofPlain?_plain hx
  rw [hplain, ofPlain?_plain hy] at hread
  exact (Option.some.inj hread).symm

/-! ## Spellings of a locale -/

theorem trim_plain (x : Float) : Text.trim (plain x) = plain x := by
  cases hx : x.isNaN with
  | true =>
      rw [plain, if_pos hx]
      decide
  | false =>
      have hliteral := isLiteral_of_ofPlain? (ofPlain?_plain hx)
      exact Text.trim_eq_self hliteral.allLiteral.isBlank_eq_false

theorem ofLocale?_plain (x : Float) :
    ofLocale? (plain x) = if x.isNaN then none else some x := by
  cases hx : x.isNaN with
  | true =>
      rw [plain, if_pos hx, if_pos rfl]
      decide
  | false =>
      rw [if_neg Bool.false_ne_true]
      apply ofLocale?_of_ofPlain?
      rw [trim_plain, ofPlain?_plain hx]

/-! ## Reading never gives what is not a number -/

theorem isNaN_of_ofPlain? {s : List Char} {x : Float}
    (h : ofPlain? s = some x) : x.isNaN = false := by
  obtain ⟨-, hx⟩ := Option.filter_eq_some_iff.mp h
  simpa using hx

theorem isNaN_of_ofLocale? {s : List Char} {x : Float}
    (h : ofLocale? s = some x) : x.isNaN = false := by
  rw [ofLocale?] at h
  split at h
  · contradiction
  · rw [ofCompact?] at h
    split at h
    · obtain ⟨y, hy, rfl⟩ := Option.map_eq_some_iff.mp h
      exact isNaN_div (isNaN_of_ofPlain? hy) (by decide) (by decide)
    · exact isNaN_of_ofPlain? h

end Chartbook.Number
