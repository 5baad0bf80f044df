import Chartbook.Proofs.Number.Monotone
import Chartbook.Proofs.Number.Order
import Chartbook.Proofs.Number.Range

/-!
# Products and quotients

The operations on floats keep the digits that they drop in two bits.  What these
bits say is enough to round correctly, so the product and the quotient of two
positive floats are the floats nearest to the exact ones.
-/

namespace Chartbook.Number

open Float.Model Float.Model.UnpackedFloat

/-! ## Mantissas that stand for quotients -/

/-- A mantissa for `a / d`, with what its two bits say of the rest. -/
structure StandsFor (em : ExtendedMantissa) (a d : Nat) : Prop where
  mantissa : em.mantissa = a / d
  roundBit : em.roundBit = true ↔ d ≤ 2 * (a % d)
  stickyBit : em.stickyBit = true ↔ a % d ≠ 0 ∧ 2 * (a % d) ≠ d

namespace StandsFor

variable {em : ExtendedMantissa} {a d : Nat} (hd : 0 < d)
include hd

private theorem of_fraction :
    StandsFor (.ofMantissaAndAccuracy (a / d) (accuracyOfFraction (a % d) d))
      a d := by
  have hrest := Nat.mod_lt a hd
  rw [accuracyOfFraction]
  split
  · constructor <;> simp [ExtendedMantissa.ofMantissaAndAccuracy] <;> omega
  · rcases lt_trichotomy (2 * (a % d)) d with hlt | heq | hgt
    · rw [compare_lt_iff_lt.mpr hlt]
      constructor <;> simp [ExtendedMantissa.ofMantissaAndAccuracy] <;> omega
    · rw [compare_eq_iff_eq.mpr heq]
      constructor <;> simp [ExtendedMantissa.ofMantissaAndAccuracy] <;> omega
    · rw [compare_gt_iff_gt.mpr hgt]
      constructor <;> simp [ExtendedMantissa.ofMantissaAndAccuracy] <;> omega

theorem shiftRightOne (h : StandsFor em a d) :
    StandsFor em.shiftRightOne a (d * 2) := by
  have hrest := Nat.mod_lt a hd
  have hmod : a % (d * 2) = a % d + d * (a / d % 2) := Nat.mod_mul
  have hparity : a / d % 2 = 0 ∨ a / d % 2 = 1 := by omega
  constructor
  · rw [ExtendedMantissa.shiftRightOne, h.mantissa, Nat.div_div_eq_div_mul]
  · rw [ExtendedMantissa.shiftRightOne, h.mantissa, hmod]
    rcases hparity with hparity | hparity <;> rw [hparity] <;> simp <;> omega
  · rw [ExtendedMantissa.shiftRightOne]
    dsimp only
    rw [Bool.or_eq_true, h.roundBit, h.stickyBit, hmod]
    rcases hparity with hparity | hparity <;> rw [hparity] <;> omega

private theorem shiftRight (h : StandsFor em a d) (k : Nat) :
    StandsFor (em >>> k) a (d * 2 ^ k) := by
  induction k with
  | zero =>
      rw [Nat.pow_zero, Nat.mul_one]
      exact h
  | succ k ih =>
      rw [Nat.pow_succ, ← Nat.mul_assoc]
      exact ih.shiftRightOne (Nat.mul_pos hd (Nat.two_pow_pos k))

private theorem roundedMantissa_eq (h : StandsFor em a d) :
    em.roundedMantissa = roundEven a d := by
  have hrest := Nat.mod_lt a hd
  obtain ⟨mantissa, roundBit, stickyBit⟩ := em
  obtain ⟨hmantissa, hround, hsticky⟩ := h
  dsimp only at hmantissa hround hsticky
  rw [ExtendedMantissa.roundedMantissa, roundEven, ← hmantissa]
  cases roundBit <;> cases stickyBit <;> simp at hround hsticky <;>
    simp only [ExtendedMantissa.accuracy, Accuracy.roundToNearestEven]
  · rw [if_pos (by omega)]
  · rw [if_pos (by omega)]
  · rw [if_neg (by omega), if_neg (by omega)]
  · rw [if_neg (by omega), if_pos (by omega)]

end StandsFor

/-! ## Rounded quotients -/

section Quotient

variable {a d : Nat} {e : Int} (hd : 0 < d)
include hd

private theorem rounded_eq_roundEven :
    rounded (a / d) e (accuracyOfFraction (a % d) d) =
      roundEven a (d * 2 ^ dropped (a / d) e) :=
  ((StandsFor.of_fraction hd).shiftRight hd _).roundedMantissa_eq
    (Nat.mul_pos hd (Nat.two_pow_pos _))

theorem isPlace_dropped (hplace : e ≤ lastPlace (a / d) e) :
    IsPlace (a * 2 ^ e.toNat * 2 ^ onePlace) (d * 2 ^ (-e).toNat)
      (e + dropped (a / d) e + 1074).toNat := by
  have hlog := log2_le_dropped (a / d) e
  have hlow := neg_le_add_dropped (a / d) e
  have hlast : e + dropped (a / d) e = lastPlace (a / d) e := by
    rw [dropped]
    omega
  have hlt : a < d * 2 ^ ((a / d).log2 + 1) := by
    have hquotient : a / d < 2 ^ ((a / d).log2 + 1) := Nat.lt_log2_self
    rwa [Nat.div_lt_iff_lt_mul hd, Nat.mul_comm] at hquotient
  generalize dropped (a / d) e = k at *
  have hexponent (n : Nat) : (-e).toNat + ((e + k + 1074).toNat + n) =
      k + n + (e.toNat + onePlace) := by
    rw [onePlace]
    omega
  constructor
  · rw [Nat.mul_assoc, Nat.mul_assoc, ← Nat.pow_add, ← Nat.pow_add, hexponent,
      Nat.pow_add 2 (k + 53), ← Nat.mul_assoc]
    refine Nat.mul_lt_mul_of_pos_right (hlt.trans_le ?_) (Nat.two_pow_pos _)
    exact Nat.mul_le_mul_left _ (Nat.pow_le_pow_right (by decide) (by omega))
  · refine or_iff_not_imp_left.mpr fun hne => ?_
    rw [lastPlace] at hlast hplace
    have hquotient : a / d ≠ 0 := by
      intro hzero
      rw [hzero, Nat.log2_zero] at hlast hplace
      omega
    rw [Nat.mul_assoc, Nat.mul_assoc, ← Nat.pow_add, ← Nat.pow_add, hexponent,
      Nat.pow_add 2 (k + 52), ← Nat.mul_assoc]
    refine Nat.mul_le_mul_right _ ?_
    rw [Nat.mul_comm, ← Nat.le_div_iff_mul_le hd,
      show k + 52 = (a / d).log2 by omega]
    exact Nat.log2_self_le hquotient

theorem roundEven_dropped :
    roundEven (a * 2 ^ e.toNat * 2 ^ onePlace)
        (d * 2 ^ (-e).toNat * 2 ^ (e + dropped (a / d) e + 1074).toNat) =
      rounded (a / d) e (accuracyOfFraction (a % d) d) := by
  have hlow := neg_le_add_dropped (a / d) e
  have hscale := @roundEven_mul_right a (d * 2 ^ dropped (a / d) e)
    (2 ^ (e.toNat + onePlace)) (Nat.two_pow_pos _)
  rw [rounded_eq_roundEven hd, ← hscale, Nat.mul_assoc, Nat.mul_assoc,
    Nat.mul_assoc, ← Nat.pow_add, ← Nat.pow_add, ← Nat.pow_add,
    show (-e).toNat + (e + dropped (a / d) e + 1074).toNat =
      dropped (a / d) e + (e.toNat + onePlace) by rw [onePlace]; omega]

end Quotient

/-! ## Packed numbers -/

theorem eq_of_unpack_eq {x y : Float}
    (h : x.toModel.unpack = y.toModel.unpack) : x = y := by
  have hbits : x.toBits = y.toBits := UInt64.toBitVec_inj.mp
    ((unpack_inj_of_valid x.toModel.valid y.toModel.valid).mp h)
  rw [← x.ofBits_toBits, hbits, Float.ofBits_toBits]

theorem unpack_ofMagnitude (negative : Bool) {b : Nat} (hpos : 0 < b)
    (hfinite : b < infinite) :
    (ofMagnitude negative b).toModel.unpack =
      .finite (if negative then .negative else .positive)
        (Binary.ofMagnitude b).significand (Binary.ofMagnitude b).exponent
        (significand_pos hpos) := by
  have hmagnitude := magnitude_ofMagnitude negative hfinite.le
  have hunpack := unpack_of_finite (x := ofMagnitude negative b)
    (by rwa [hmagnitude]) (by rwa [hmagnitude])
  simp only [hmagnitude] at hunpack
  rw [hunpack, signOf_eq, isNegative_ofMagnitude negative hfinite.le]

theorem neg_ofMagnitude {b : Nat} (hfinite : b < infinite) :
    -ofMagnitude false b = ofMagnitude true b := by
  apply eq_of_unpack_eq
  rcases Nat.eq_zero_or_pos b with rfl | hpos
  · rfl
  · have hreal : (ofMagnitude false b).isFinite = true := by
      rw [isFinite_iff, magnitude_ofMagnitude false hfinite.le]
      exact hfinite
    rw [unpack_neg hreal, unpack_ofMagnitude false hpos hfinite,
      unpack_ofMagnitude true hpos hfinite]
    rfl

private theorem pack_finite {m : Nat} {e : Int} (hpos : 0 < m)
    (hlt : m < 2 ^ 53) (hlow : -1074 ≤ e) (hfull : e = -1074 ∨ 2 ^ 52 ≤ m) :
    Float.ofModel (Float.Model.pack (.finite .positive m e hpos)) =
      ofMagnitude false (min infinite (m + (e + 1074).toNat * binade)) := by
  apply eq_of_unpack_eq
  rcases Int.lt_or_le 971 e with hlarge | hsmall
  · have hinfinite : infinite ≤ m + (e + 1074).toNat * binade := by
      rw [infinite, binade]
      omega
    rw [min_eq_left hinfinite, unpack_of_infinite
      (magnitude_ofMagnitude false le_rfl), signOf_eq,
      isNegative_ofMagnitude false le_rfl]
    exact unpack_pack_infinite _ hlarge
  · have hfinite : m + (e + 1074).toNat * binade < infinite := by
      rw [infinite, binade]
      omega
    have hbinary : Binary.ofMagnitude (m + (e + 1074).toNat * binade) =
        ⟨m, e⟩ := by
      rw [ofMagnitude_add (by rw [binade]; omega) (by rw [binade]; omega)]
      congr
      omega
    rw [min_eq_right hfinite.le,
      unpack_ofMagnitude false (Nat.add_pos_left hpos _) hfinite]
    refine (unpack_pack ⟨hpos, hlt, hlow, hsmall, hfull⟩).trans ?_
    exact (finite_congr (congrArg Binary.significand hbinary)
      (congrArg Binary.exponent hbinary)).symm

/-- Rounding a quotient to a float gives the nearest one. -/
theorem pack_roundWithAccuracy {a d : Nat} {e : Int} (ha : 0 < a) (hd : 0 < d)
    (hplace : e ≤ lastPlace (a / d) e) :
    Float.ofModel (Float.Model.pack (roundWithAccuracy .binary64 .positive
      (a / d) e (accuracyOfFraction (a % d) d))) =
        ofMagnitude false (nearest (a * 2 ^ e.toNat) (d * 2 ^ (-e).toNat)) := by
  have hlow := neg_le_add_dropped (a / d) e
  have hp := isPlace_dropped hd hplace
  obtain ⟨hfull, hhigh⟩ := hp.roundEven_bounds
    (Nat.mul_pos hd (Nat.two_pow_pos _))
  rw [nearest_eq (Nat.mul_pos ha (Nat.two_pow_pos _))
    (Nat.mul_pos hd (Nat.two_pow_pos _)) hp, roundWithAccuracy_eq]
  rw [roundEven_dropped hd] at hfull hhigh ⊢
  generalize rounded (a / d) e (accuracyOfFraction (a % d) d) = r at *
  generalize e + (dropped (a / d) e : Int) = place at *
  rw [binade] at hfull hhigh
  split
  · rename_i hzero
    obtain hplace : (place + 1074).toNat = 0 := by omega
    rw [hzero, hplace]
    rfl
  · split
    · rename_i hne hlt
      exact pack_finite _ hlt hlow (by omega)
    · rename_i hne hge
      have hcarry : r + (place + 1074).toNat * binade =
          2 ^ 52 + (place + 1 + 1074).toNat * binade := by
        rw [binade]
        omega
      rw [hcarry]
      exact pack_finite _ (by decide) (by omega) (.inr le_rfl)

/-! ## Exact results -/

theorem div_mul_two_zpow (a d : Nat) (e : Int) :
    ((a * 2 ^ e.toNat : Nat) : ℚ) / (d * 2 ^ (-e).toNat : Nat) =
      a / d * 2 ^ e := by
  rw [two_zpow_eq]
  push_cast
  exact mul_div_mul_comm ..

private theorem two_pow_le_div {m n j : Nat} (hn : 0 < n) (hm : 0 < m)
    (h : n.log2 + j + 1 ≤ m.log2) : 2 ^ j ≤ m / n := by
  rw [Nat.le_div_iff_mul_le hn]
  calc 2 ^ j * n ≤ 2 ^ j * 2 ^ (n.log2 + 1) :=
        Nat.mul_le_mul_left _ Nat.lt_log2_self.le
    _ = 2 ^ (n.log2 + j + 1) := by
        rw [← Nat.pow_add]
        congr 1
        omega
    _ ≤ 2 ^ m.log2 := Nat.pow_le_pow_right (by decide) h
    _ ≤ m := Nat.log2_self_le hm.ne'

section Operations

variable {a b num den : Nat} (ha : 0 < a) (hfinite : a < infinite) (hb : 0 < b)
  (hfinite' : b < infinite) (hden : 0 < den)
include ha hfinite hb hfinite' hden

theorem ofMagnitude_mul (h : (num : ℚ) / den =
      (Binary.ofMagnitude a).value * (Binary.ofMagnitude b).value) :
    ofMagnitude false a * ofMagnitude false b =
      ofMagnitude false (nearest num den) := by
  obtain ⟨hpos, -, hlow, -, hfull⟩ := isCanonical_ofMagnitude ha hfinite
  obtain ⟨hpos', -, hlow', -, hfull'⟩ := isCanonical_ofMagnitude hb hfinite'
  change Float.ofModel (Float.Model.pack (UnpackedFloat.mul .binary64
    (ofMagnitude false a).toModel.unpack
    (ofMagnitude false b).toModel.unpack)) = _
  rw [unpack_ofMagnitude false ha hfinite, unpack_ofMagnitude false hb hfinite',
    UnpackedFloat.mul]
  rw [Binary.value, Binary.value] at h
  generalize (Binary.ofMagnitude a).significand = m at *
  generalize (Binary.ofMagnitude a).exponent = e at *
  generalize (Binary.ofMagnitude b).significand = m' at *
  generalize (Binary.ofMagnitude b).exponent = e' at *
  have hdigits : e + e' ≤ -1074 ∨ 2 ^ 52 ≤ m * m' := by
    rcases hfull with hfull | hfull
    · refine hfull'.imp (fun hfull' => by omega) fun hfull' => ?_
      exact hfull'.trans (Nat.le_mul_of_pos_left _ hpos)
    · exact .inr (hfull.trans (Nat.le_mul_of_pos_right _ hpos'))
  have hplace : e + e' ≤ lastPlace (m * m' / 1) (e + e') := by
    rw [← Nat.le_log2 (Nat.mul_pos hpos hpos').ne'] at hdigits
    rw [Nat.div_one, lastPlace]
    omega
  have hround := pack_roundWithAccuracy (Nat.mul_pos hpos hpos') Nat.one_pos
    hplace
  rw [Nat.mod_one, Nat.div_one] at hround
  refine hround.trans (congrArg (ofMagnitude false) ?_)
  refine nearest_congr (Nat.mul_pos (Nat.mul_pos hpos hpos')
    (Nat.two_pow_pos _)) (Nat.mul_pos Nat.one_pos (Nat.two_pow_pos _)) hden ?_
  rw [h, div_mul_two_zpow, zpow_add₀ (by norm_num)]
  push_cast
  ring

theorem ofMagnitude_div (h : (num : ℚ) / den =
      (Binary.ofMagnitude a).value / (Binary.ofMagnitude b).value) :
    ofMagnitude false a / ofMagnitude false b =
      ofMagnitude false (nearest num den) := by
  obtain ⟨hpos, -, hlow, -, hfull⟩ := isCanonical_ofMagnitude ha hfinite
  obtain ⟨hpos', -, hlow', -, hfull'⟩ := isCanonical_ofMagnitude hb hfinite'
  change Float.ofModel (Float.Model.pack (UnpackedFloat.div .binary64
    (ofMagnitude false a).toModel.unpack
    (ofMagnitude false b).toModel.unpack)) = _
  rw [unpack_ofMagnitude false ha hfinite, unpack_ofMagnitude false hb hfinite',
    UnpackedFloat.div, divCore]
  rw [Binary.value, Binary.value] at h
  generalize (Binary.ofMagnitude a).significand = m at *
  generalize (Binary.ofMagnitude a).exponent = e at *
  generalize (Binary.ofMagnitude b).significand = m' at *
  generalize (Binary.ofMagnitude b).exponent = e' at *
  dsimp only
  have htarget : Format.binary64.targetExponent
      (totalExponent m e - totalExponent m' e') =
        max ((m.log2 : Int) + e - m'.log2 - e' - 53) (-1074) := by
    rw [Format.targetExponent, totalExponent, totalExponent]
    change max ((m.log2 : Int) + 1 + e - (m'.log2 + 1 + e') - 53)
      (3 - 2 ^ 10 - 53) = _
    omega
  rw [htarget]
  generalize hplace : min (e - e')
    (max ((m.log2 : Int) + e - m'.log2 - e' - 53) (-1074)) = place
  generalize hk : (e - e' - place).toNat = k
  have hdividend : 0 < m <<< k := by
    rw [Nat.shiftLeft_eq]
    exact Nat.mul_pos hpos (Nat.two_pow_pos k)
  have hlast : place ≤ lastPlace (m <<< k / m') place := by
    rw [lastPlace]
    rcases le_or_gt place (-1074) with hlowest | habove
    · exact hlowest.trans (le_max_right ..)
    · have hdigits : 2 ^ 52 ≤ m <<< k / m' := by
        refine two_pow_le_div hpos' hdividend ?_
        rw [log2_shiftLeft hpos]
        omega
      rw [← Nat.le_log2 (by omega)] at hdigits
      omega
  refine (pack_roundWithAccuracy hdividend hpos' hlast).trans
    (congrArg (ofMagnitude false) ?_)
  refine nearest_congr (Nat.mul_pos hdividend (Nat.two_pow_pos _))
    (Nat.mul_pos hpos' (Nat.two_pow_pos _)) hden ?_
  have hshift : e = e' + (place + k) := by omega
  rw [h, div_mul_two_zpow, Nat.shiftLeft_eq, hshift,
    zpow_add₀ (by norm_num), zpow_add₀ (by norm_num), zpow_natCast]
  push_cast
  field_simp

end Operations

theorem ofMagnitude_zero_mul {b : Nat} (hb : 0 < b) (hfinite : b < infinite) :
    ofMagnitude false 0 * ofMagnitude false b = ofMagnitude false 0 := by
  change Float.ofModel (Float.Model.pack (UnpackedFloat.mul .binary64
    (.zero .positive) (ofMagnitude false b).toModel.unpack)) = _
  rw [unpack_ofMagnitude false hb hfinite]
  rfl

theorem ofMagnitude_zero_div {b : Nat} (hb : 0 < b) (hfinite : b < infinite) :
    ofMagnitude false 0 / ofMagnitude false b = ofMagnitude false 0 := by
  change Float.ofModel (Float.Model.pack (UnpackedFloat.div .binary64
    (.zero .positive) (ofMagnitude false b).toModel.unpack)) = _
  rw [unpack_ofMagnitude false hb hfinite]
  rfl

/-! ## Bounds of results -/

section Bounds

variable {a b c : Nat} (ha : 0 < a) (hfinite : a < infinite) (hb : 0 < b)
  (hfinite' : b < infinite) (hc : 0 < c) (hlast : c < infinite)
include ha hfinite hb hfinite' hc hlast

theorem exists_mul_le (h : (Binary.ofMagnitude a).value *
      (Binary.ofMagnitude b).value ≤ (Binary.ofMagnitude c).value) :
    ∃ r ≤ c, ofMagnitude false a * ofMagnitude false b =
      ofMagnitude false r := by
  have hvalue : (((Binary.ofMagnitude a).numerator *
      (Binary.ofMagnitude b).numerator : Nat) : ℚ) /
        ((Binary.ofMagnitude a).denominator *
          (Binary.ofMagnitude b).denominator : Nat) =
      (Binary.ofMagnitude a).value * (Binary.ofMagnitude b).value := by
    rw [Binary.value_eq, Binary.value_eq]
    push_cast
    exact mul_div_mul_comm ..
  have hden := Nat.mul_pos (Binary.ofMagnitude a).denominator_pos
    (Binary.ofMagnitude b).denominator_pos
  refine ⟨_, ?_, ofMagnitude_mul ha hfinite hb hfinite' hden hvalue⟩
  exact nearest_le_of_le_value
    (Nat.mul_pos (numerator_pos ha) (numerator_pos hb)) hden hc hlast
    (hvalue.trans_le h)

theorem exists_div_le (h : (Binary.ofMagnitude a).value /
      (Binary.ofMagnitude b).value ≤ (Binary.ofMagnitude c).value) :
    ∃ r ≤ c, ofMagnitude false a / ofMagnitude false b =
      ofMagnitude false r := by
  have hvalue : (((Binary.ofMagnitude a).numerator *
      (Binary.ofMagnitude b).denominator : Nat) : ℚ) /
        ((Binary.ofMagnitude a).denominator *
          (Binary.ofMagnitude b).numerator : Nat) =
      (Binary.ofMagnitude a).value / (Binary.ofMagnitude b).value := by
    rw [Binary.value_eq, Binary.value_eq]
    push_cast
    exact (div_div_div_eq ..).symm
  have hden := Nat.mul_pos (Binary.ofMagnitude a).denominator_pos
    (numerator_pos hb)
  refine ⟨_, ?_, ofMagnitude_div ha hfinite hb hfinite' hden hvalue⟩
  exact nearest_le_of_le_value (Nat.mul_pos (numerator_pos ha)
    (Binary.ofMagnitude b).denominator_pos) hden hc hlast
    (hvalue.trans_le h)

end Bounds

end Chartbook.Number
