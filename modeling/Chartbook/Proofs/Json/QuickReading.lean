import Chartbook.Proofs.Json.Numerals
import Chartbook.Proofs.Number.Operations

/-!
# Numbers read the quick way

The quick way to read a numeral never makes a written number infinite.  It takes
up to 64 bits of the digits, and each of its operations rounds; all that adds
less than six floats to the number that was written.  A number whose digits fit
into 53 bits and whose power of ten is a float is read as itself.
-/

namespace Chartbook.Json

open Chartbook.Number (AllDigits Binary Decimal digitsValue infinite nearest
  magnitude ofMagnitude)

/-! ## Digits that are taken -/

private theorem takeDigits_spec (front s : List Char) :
    ∃ t ≤ s.length,
      takeDigits (digitsValue front) s =
        (digitsValue (front ++ s.take t), t) ∧
      (digitsValue front < 2 ^ 64 →
        digitsValue (front ++ s.take t) < 2 ^ 64) ∧
      (digitsValue (front ++ s) < 2 ^ 64 → t = s.length) := by
  induction s generalizing front with
  | nil => exact ⟨0, le_rfl, by simp [takeDigits], by simp, fun _ => rfl⟩
  | cons c s ih =>
      have hnext : 10 * digitsValue front + digitsValue [c] =
          digitsValue (front ++ [c]) := by
        rw [Chartbook.Number.digitsValue_append_eq, Nat.mul_comm]
        rfl
      simp only [takeDigits, hnext]
      split
      · rename_i hfits
        obtain ⟨t, ht, htake, hlt, hall⟩ := ih (front ++ [c])
        rw [List.append_assoc] at htake hlt hall
        rw [htake]
        exact ⟨t + 1, Nat.succ_le_succ ht, rfl, fun _ => hlt hfits,
          fun h => congrArg Nat.succ (hall h)⟩
      · rename_i hfull
        refine ⟨0, Nat.zero_le _, by simp, by simp, fun h => ?_⟩
        have hvalue := Chartbook.Number.digitsValue_append_eq (front ++ [c]) s
        have hpow := Nat.le_mul_of_pos_right (digitsValue (front ++ [c]))
          (Nat.pow_pos (n := s.length) (by decide : 0 < 10))
        rw [List.append_assoc] at hvalue
        change digitsValue (front ++ c :: s) = _ at hvalue
        omega

theorem Numeral.quickFloat_eq {n : Numeral} (hwhole : AllDigits n.whole)
    (hlength : n.whole.length ≤ 19) :
    ∃ t ≤ n.fraction.length, ∃ value,
      value = digitsValue (n.whole ++ n.fraction.take t) ∧ value < 2 ^ 64 ∧
      (digitsValue (n.whole ++ n.fraction) < 2 ^ 64 →
        t = n.fraction.length) ∧
      n.quickFloat = if 0 ≤ n.exponent - t
        then raise (wholeFloat value) (n.exponent - t).toNat
        else lower (wholeFloat value) (-(n.exponent - t)).toNat := by
  have hlt : digitsValue n.whole < 2 ^ 64 :=
    (Chartbook.Number.digitsValue_lt hwhole).trans_le
      ((Nat.pow_le_pow_right (by decide) hlength).trans (by decide))
  obtain ⟨t', -, htake', -, hall'⟩ := takeDigits_spec [] n.whole
  obtain ⟨t, ht, htake, hfits, hall⟩ := takeDigits_spec n.whole n.fraction
  obtain rfl := hall' hlt
  rw [List.take_length, List.nil_append] at htake'
  change takeDigits 0 n.whole = _ at htake'
  refine ⟨t, ht, _, rfl, hfits hlt, hall, ?_⟩
  simp only [quickFloat, htake', htake, Nat.sub_self, Nat.cast_zero,
    Int.add_zero]

/-! ## Floats of whole numbers -/

theorem nearest_lt_infinite {n : Nat} (hn : 0 < n) (h : n ≤ 10 ^ lastPower) :
    nearest n 1 < infinite := by
  have hlast : nearest (10 ^ lastPower) 1 < infinite := by decide +kernel
  exact (Chartbook.Number.nearest_mono hn Nat.one_pos Nat.one_pos
    (by omega)).trans_lt hlast

theorem nearest_pos {n : Nat} (hn : 0 < n) (hfinite : nearest n 1 < infinite) :
    0 < nearest n 1 := by
  refine Nat.pos_of_ne_zero fun hzero => ?_
  have hone := Chartbook.Number.one_le_value_nearest hn hfinite
  rw [hzero] at hone
  norm_num [Binary.ofMagnitude, Binary.value, Chartbook.Number.binade] at hone

private theorem nearest_word_lt_infinite {n : Nat} (hn : 0 < n)
    (hlt : n < 2 ^ 64) : nearest n 1 < infinite :=
  nearest_lt_infinite hn (hlt.le.trans (by decide +kernel))

private theorem nearest_ten_pow {k : Nat} (hk : k ≤ lastPower) :
    0 < nearest (10 ^ k) 1 ∧ nearest (10 ^ k) 1 < infinite := by
  have hten : 0 < 10 ^ k := Nat.pow_pos (by decide)
  have hfinite := nearest_lt_infinite hten
    (Nat.pow_le_pow_right (by decide) hk)
  exact ⟨nearest_pos hten hfinite, hfinite⟩

theorem wholeFloat_eq {n : Nat} (hn : 0 < n) :
    wholeFloat n = ofMagnitude false (nearest n 1) := by
  rw [wholeFloat, Decimal.toFloat, Decimal.nearest, if_neg hn.ne',
    if_neg (by dsimp only; omega), if_neg (by dsimp only; omega)]
  simp [Decimal.numerator, Decimal.denominator]

theorem powerOfTen_eq {k : Nat} (hk : k ≤ lastPower) :
    powerOfTen k = ofMagnitude false (nearest (10 ^ k) 1) := by
  rw [lastPower] at hk
  rw [powerOfTen, Decimal.toFloat, Decimal.nearest, if_neg Nat.one_ne_zero,
    if_neg (by dsimp only; omega), if_neg (by dsimp only; omega)]
  simp [Decimal.numerator, Decimal.denominator]

theorem isFinite_ofMagnitude {b : Nat} (h : b < infinite) :
    (ofMagnitude false b).isFinite = true := by
  rw [Chartbook.Number.isFinite_iff,
    Chartbook.Number.magnitude_ofMagnitude false h.le]
  exact h

/-! ## Powers of ten put on -/

theorem value_infinite_sub {i : Nat} (hpos : 0 < i) (hle : i ≤ 3) :
    (Binary.ofMagnitude (infinite - i)).value =
      (2 ^ 53 - i) * 2 ^ (971 : ℤ) := by
  have hsplit :
      infinite - i = (2 ^ 53 - i) + 2045 * Chartbook.Number.binade := by
    rw [infinite, Chartbook.Number.binade]
    omega
  rw [hsplit, Chartbook.Number.ofMagnitude_add
    (.inr (by rw [Chartbook.Number.binade]; omega))
    (by rw [Chartbook.Number.binade]; omega), Binary.value]
  dsimp only
  rw [Nat.cast_sub (by omega)]
  congr 1

section Raise

variable {n k : Nat} (hn : 0 < n)
  (h : (n : ℚ) * 10 ^ k < (Binary.ofMagnitude (infinite - 3)).value)
include hn h

private theorem le_lastPower : k ≤ lastPower := by
  have hpow : (10 : ℚ) ^ k < 10 ^ (lastPower + 1) := by
    have hone : (1 : ℚ) ≤ n := by exact_mod_cast hn
    have hbound : 2 ^ 53 * 2 ^ 971 ≤ 10 ^ (lastPower + 1) := by decide +kernel
    calc (10 : ℚ) ^ k ≤ n * 10 ^ k := le_mul_of_one_le_left (by positivity) hone
      _ < (Binary.ofMagnitude (infinite - 3)).value := h
      _ ≤ 2 ^ 53 * 2 ^ 971 := by
        rw [value_infinite_sub (by decide) le_rfl]
        refine mul_le_mul ?_ ?_ ?_ ?_
        · norm_num
        · exact le_of_eq (zpow_natCast 2 971)
        · positivity
        · positivity
      _ ≤ 10 ^ (lastPower + 1) := by exact_mod_cast hbound
  exact Nat.le_of_lt_succ ((pow_lt_pow_iff_right₀ (by norm_num)).mp hpow)

theorem isFinite_raise (hlt : n < 2 ^ 64) :
    (raise (wholeFloat n) k).isFinite = true := by
  have hk := le_lastPower hn h
  have hten : 0 < 10 ^ k := Nat.pow_pos (by decide)
  have hfinite := nearest_word_lt_infinite hn hlt
  obtain ⟨hpos', hfinite'⟩ := nearest_ten_pow hk
  have hvalue := Chartbook.Number.value_nearest_le hn hfinite
  have hvalue' := Chartbook.Number.value_nearest_le hten hfinite'
  have hone' := Chartbook.Number.one_le_value_nearest hten hfinite'
  have hproduct : (Binary.ofMagnitude (nearest n 1)).value *
      (Binary.ofMagnitude (nearest (10 ^ k) 1)).value ≤
        (Binary.ofMagnitude (infinite - 1)).value := by
    rw [value_infinite_sub (by decide) le_rfl, Nat.cast_ofNat] at h
    rw [value_infinite_sub (by decide) (by decide)]
    rw [Nat.cast_pow, Nat.cast_ofNat] at hvalue'
    calc (Binary.ofMagnitude (nearest n 1)).value *
          (Binary.ofMagnitude (nearest (10 ^ k) 1)).value
        ≤ (n * (1 + 1 / 2 ^ 53)) * (10 ^ k * (1 + 1 / 2 ^ 53)) := by gcongr
      _ = (1 + 1 / 2 ^ 53) ^ 2 * (n * 10 ^ k) := by ring
      _ ≤ (1 + 1 / 2 ^ 53) ^ 2 * ((2 ^ 53 - 3) * 2 ^ (971 : ℤ)) := by
        gcongr
      _ = (1 + 1 / 2 ^ 53) ^ 2 * (2 ^ 53 - 3) * 2 ^ (971 : ℤ) :=
        (mul_assoc ..).symm
      _ ≤ (2 ^ 53 - (1 : Nat)) * 2 ^ (971 : ℤ) := by
        gcongr
        norm_num
  rw [raise, if_pos hk, wholeFloat_eq hn, powerOfTen_eq hk]
  obtain ⟨r, hr, heq⟩ := Chartbook.Number.exists_mul_le
    (nearest_pos hn hfinite) hfinite hpos' hfinite' (by decide) (by decide)
    hproduct
  rw [heq]
  exact isFinite_ofMagnitude (hr.trans_lt (by decide))

end Raise

/-! ## Powers of ten taken off -/

theorem exists_div {a k : Nat} (ha : a < infinite) (hk : k ≤ lastPower) :
    ∃ r ≤ a, ofMagnitude false a / powerOfTen k = ofMagnitude false r := by
  obtain ⟨hpos, hfinite⟩ := nearest_ten_pow hk
  rw [powerOfTen_eq hk]
  rcases Nat.eq_zero_or_pos a with rfl | ha_pos
  · exact ⟨0, le_rfl, Chartbook.Number.ofMagnitude_zero_div hpos hfinite⟩
  · refine Chartbook.Number.exists_div_le ha_pos ha hpos hfinite ha_pos ha ?_
    refine div_le_self ?_ (Chartbook.Number.one_le_value_nearest
      (Nat.pow_pos (by decide)) hfinite)
    rw [Binary.value]
    positivity

private theorem exists_lowerBy {a : Nat} (ha : a < infinite) (steps : Nat) :
    ∃ r ≤ a, lowerBy (ofMagnitude false a) steps = ofMagnitude false r := by
  induction steps generalizing a with
  | zero => exact ⟨a, le_rfl, rfl⟩
  | succ steps ih =>
      rw [lowerBy]
      split
      · exact ⟨a, le_rfl, rfl⟩
      · obtain ⟨r, hr, hdiv⟩ := exists_div ha le_rfl
        rw [hdiv]
        obtain ⟨r', hr', hsteps⟩ := ih (hr.trans_lt ha)
        exact ⟨r', hr'.trans hr, hsteps⟩

private theorem isFinite_lower {n k : Nat} (hlt : n < 2 ^ 64) :
    (lower (wholeFloat n) k).isFinite = true := by
  obtain ⟨a, ha, hwhole⟩ : ∃ a < infinite,
      wholeFloat n = ofMagnitude false a := by
    rcases Nat.eq_zero_or_pos n with rfl | hn
    · exact ⟨0, by decide, rfl⟩
    · exact ⟨_, nearest_word_lt_infinite hn hlt, wholeFloat_eq hn⟩
  rw [lower, hwhole]
  obtain ⟨r, hr, hsteps⟩ := exists_lowerBy ha ((k - 1) / lastPower)
  obtain ⟨r', hr', hdiv⟩ := exists_div (hr.trans_lt ha)
    (k := k - lastPower * ((k - 1) / lastPower))
    (by rw [lastPower]; omega)
  rw [hsteps, hdiv]
  exact isFinite_ofMagnitude (hr'.trans_lt (hr.trans_lt ha))

/-! ## Numbers that are written -/

private theorem raise_zero (k : Nat) :
    raise (wholeFloat 0) k = ofMagnitude false 0 := by
  rw [raise]
  split
  · rename_i hk
    obtain ⟨hpos, hfinite⟩ := nearest_ten_pow hk
    rw [powerOfTen_eq hk]
    exact Chartbook.Number.ofMagnitude_zero_mul hpos hfinite
  · rfl

namespace Numeral

variable {n : Numeral}

private theorem taken_le {t : Nat} (ht : t ≤ n.fraction.length)
    (he : 0 ≤ n.exponent - t) :
    (digitsValue (n.whole ++ n.fraction.take t) : ℚ) *
        10 ^ (n.exponent - t).toNat ≤
      n.decimal.numerator / n.decimal.denominator := by
  have hsplit := Chartbook.Number.digitsValue_append_eq
    (n.whole ++ n.fraction.take t) (n.fraction.drop t)
  rw [List.append_assoc, List.take_append_drop, List.length_drop] at hsplit
  have hscaled : digitsValue (n.whole ++ n.fraction.take t) *
      10 ^ (n.exponent - t).toNat * n.decimal.denominator ≤
        n.decimal.numerator := by
    rw [Decimal.numerator, Decimal.denominator, decimal]
    dsimp only [Nat.pow_eq]
    rw [hsplit, Nat.mul_assoc, ← Nat.pow_add,
      show (n.exponent - t).toNat + (-(n.exponent - n.fraction.length)).toNat =
        n.fraction.length - t + (n.exponent - n.fraction.length).toNat by
        omega, Nat.pow_add, ← Nat.mul_assoc]
    exact Nat.mul_le_mul_right _ (Nat.le_add_right _ _)
  have hden : 0 < n.decimal.denominator := Nat.pow_pos (by decide)
  rw [le_div_iff₀ (by exact_mod_cast hden)]
  exact_mod_cast hscaled

variable (hwhole : AllDigits n.whole) (hlength : n.whole.length ≤ 19)
include hwhole hlength

private theorem isFinite_quickFloat (hpos : 0 < n.decimal.nearest)
    (hlt : n.decimal.nearest < infinite - 3) :
    n.quickFloat.isFinite = true := by
  obtain ⟨t, ht, value, hvalue, hfits, -, hquick⟩ :=
    n.quickFloat_eq hwhole hlength
  rw [hquick]
  split
  · rename_i hexponent
    rcases Nat.eq_zero_or_pos value with hzero | hvalue_pos
    · rw [hzero, raise_zero]
      rfl
    · have htaken := taken_le ht hexponent
      rw [← hvalue] at htaken
      obtain ⟨-, heq⟩ := Decimal.nearest_eq hpos
        (hlt.trans_le (Nat.sub_le ..))
      refine isFinite_raise hvalue_pos (htaken.trans_lt ?_) hfits
      rw [heq] at hlt
      exact not_le.mp fun hle => hlt.not_ge <|
        Chartbook.Number.le_nearest_of_value_le (Nat.pow_pos (by decide))
          (by decide) (by decide) hle
  · exact isFinite_lower hfits

end Numeral

theorem allDigits_whole_writtenNumeral {b : Nat} (hb : b < infinite) :
    AllDigits (writtenNumeral b).whole := by
  obtain ⟨s, -, hreads⟩ := exists_readsAs_realChars (isFinite_ofMagnitude hb)
  rw [Chartbook.Number.magnitude_ofMagnitude false hb.le] at hreads
  exact hreads.isWhole.allDigits

private theorem isFinite_quickFloat_largest (i : Fin 3) :
    (writtenNumeral (infinite - 1 - i)).quickFloat.isFinite = true := by
  decide +kernel +revert

private theorem isFinite_quickFloat_written {b : Nat} (hb : b < infinite) :
    (writtenNumeral b).quickFloat.isFinite = true := by
  rcases Nat.eq_zero_or_pos b with rfl | hpos
  · decide +kernel
  · rcases Nat.lt_or_ge b (infinite - 3) with hlt | hge
    · have hnearest := nearest_writtenNumeral hb
      exact Numeral.isFinite_quickFloat (allDigits_whole_writtenNumeral hb)
        ((length_whole_writtenNumeral b).trans (by decide))
        (hnearest.symm ▸ hpos) (hnearest.symm ▸ hlt)
    · have hlargest := isFinite_quickFloat_largest ⟨infinite - 1 - b, by omega⟩
      rwa [show infinite - 1 - (infinite - 1 - b) = b by omega] at hlargest

theorem Rounding.isFinite_reread (rounding : Rounding) {x : Float}
    (h : x.isFinite = true) : (rounding.reread x).isFinite = true := by
  cases rounding with
  | nearest => rwa [nearest_reread]
  | quick =>
      have hquick := isFinite_quickFloat_written
        (Chartbook.Number.isFinite_iff.mp h)
      rw [reread_eq quick h, Numeral.toFloat]
      split
      · exact Chartbook.Number.isFinite_neg hquick
      · exact hquick

/-! ## Short numbers -/

/-- A number that is written with at most 53 bits of digits, at most 22 places
before or behind the point. -/
def IsShort (x : Float) : Prop :=
  let d := (writtenNumeral (magnitude x)).decimal
  d.coefficient < 2 ^ 53 ∧ -22 ≤ d.exponent ∧ d.exponent ≤ 22

private theorem value_powerOfTen {k : Nat} (hk : k ≤ 22)
    (hfinite : nearest (10 ^ k) 1 < infinite) :
    (Binary.ofMagnitude (nearest (10 ^ k) 1)).value = 10 ^ k := by
  have hfive : 5 ^ k < 2 ^ 53 :=
    (Nat.pow_le_pow_right (by decide) hk).trans_lt (by decide)
  have hsplit : 10 ^ k = 5 ^ k * 2 ^ k := by rw [← Nat.mul_pow]
  have hvalue := Chartbook.Number.value_nearest_of_digits
    (Nat.pow_pos (by decide)) hfinite hfive hsplit
  rwa [Nat.cast_pow, Nat.cast_ofNat] at hvalue

private theorem lower_eq {k : Nat} (hk : k ≤ lastPower) (x : Float) :
    lower x k = x / powerOfTen k := by
  have hsteps : (k - 1) / lastPower = 0 := by
    rw [lastPower] at hk ⊢
    omega
  rw [lower, hsteps]
  rfl

theorem Numeral.quickFloat_of_short {n : Numeral} (hwhole : AllDigits n.whole)
    (hlength : n.whole.length ≤ 19) (hpos : 0 < n.decimal.nearest)
    (hfinite : n.decimal.nearest < infinite)
    (hcoefficient : n.decimal.coefficient < 2 ^ 53)
    (hlow : -22 ≤ n.decimal.exponent) (hhigh : n.decimal.exponent ≤ 22) :
    n.quickFloat = ofMagnitude false n.decimal.nearest := by
  obtain ⟨t, -, value, hvalue, -, hall, hquick⟩ :=
    n.quickFloat_eq hwhole hlength
  obtain rfl := hall (lt_trans hcoefficient (by decide))
  obtain ⟨hc, heq⟩ := Decimal.nearest_eq hpos hfinite
  have hden : 0 < n.decimal.denominator := Nat.pow_pos (by decide)
  rw [List.take_length] at hvalue
  change value = n.decimal.coefficient at hvalue
  change _ = if 0 ≤ n.decimal.exponent then
    raise (wholeFloat value) n.decimal.exponent.toNat
    else lower (wholeFloat value) (-n.decimal.exponent).toNat at hquick
  have hwholeFinite := nearest_word_lt_infinite hc
    (lt_trans hcoefficient (by decide))
  have hexact := Chartbook.Number.value_nearest_of_digits (t := 0) hc
    hwholeFinite hcoefficient (Nat.mul_one _).symm
  have hlast : 22 ≤ lastPower := by decide
  rw [hquick, hvalue, heq]
  split
  · have hk : n.decimal.exponent.toNat ≤ lastPower := by omega
    obtain ⟨hten, htenFinite⟩ := nearest_ten_pow hk
    rw [raise, if_pos hk, wholeFloat_eq hc, powerOfTen_eq hk]
    refine Chartbook.Number.ofMagnitude_mul (nearest_pos hc hwholeFinite)
      hwholeFinite hten htenFinite hden ?_
    rw [hexact, value_powerOfTen (by omega) htenFinite, Decimal.numerator,
      Decimal.denominator, show (-n.decimal.exponent).toNat = 0 by omega]
    simp
  · have hk : (-n.decimal.exponent).toNat ≤ lastPower := by omega
    obtain ⟨hten, htenFinite⟩ := nearest_ten_pow hk
    rw [lower_eq hk, wholeFloat_eq hc, powerOfTen_eq hk]
    refine Chartbook.Number.ofMagnitude_div (nearest_pos hc hwholeFinite)
      hwholeFinite hten htenFinite hden ?_
    rw [hexact, value_powerOfTen (by omega) htenFinite, Decimal.numerator,
      Decimal.denominator, show n.decimal.exponent.toNat = 0 by omega]
    simp

theorem Rounding.quick_reread {x : Float} (hshort : IsShort x) :
    quick.reread x = x := by
  cases h : x.isFinite with
  | false => exact quick.reread_of_not_finite h
  | true =>
      obtain ⟨hcoefficient, hlow, hhigh⟩ := hshort
      have hfinite := Chartbook.Number.isFinite_iff.mp h
      have hnearest := nearest_writtenNumeral hfinite
      have hsign := Chartbook.Number.ofMagnitude_magnitude x
      have hquick : (writtenNumeral (magnitude x)).quickFloat =
          ofMagnitude false (magnitude x) := by
        rcases Nat.eq_zero_or_pos (magnitude x) with hzero | hpos
        · rw [hzero]
          decide +kernel
        · have heq := Numeral.quickFloat_of_short
            (allDigits_whole_writtenNumeral hfinite)
            ((length_whole_writtenNumeral _).trans (by decide))
            (hnearest.symm ▸ hpos) (hnearest.symm ▸ hfinite)
            hcoefficient hlow hhigh
          rwa [hnearest] at heq
      rw [reread_eq quick h, Numeral.toFloat, hquick,
        Chartbook.Number.neg_ofMagnitude hfinite]
      cases hnegative : Chartbook.Number.isNegative x <;>
        rw [hnegative] at hsign <;> exact hsign

end Chartbook.Json
