import Chartbook.Proofs.Number.Rounding

/-!
# Canonical numbers

A finite float has one mantissa and one exponent in the range of the format.  A
number in that form is packed without loss, and it counts a whole number of
units of the least positive float.
-/

namespace Chartbook.Number

open Float.Model Float.Model.UnpackedFloat

structure IsCanonical (m : Nat) (e : Int) : Prop where
  pos : 0 < m
  lt : m < 2 ^ 53
  le_place : -1074 ≤ e
  place_le : e ≤ 971
  full : e = -1074 ∨ 2 ^ 52 ≤ m

/-! ## Packing -/

theorem finite_congr {s : Sign} {m m' : Nat} {e e' : Int} {h : 0 < m}
    {h' : 0 < m'} (hm : m' = m) (he : e' = e) :
    finite s m' e' h' = finite s m e h := by
  subst hm he
  rfl

section Pack

variable {s : Sign} {exponent : BitVec 11} {mantissa : BitVec 52} {m : Nat}
  {e : Int} {hpos : 0 < m}

private theorem unpack_packComponents_normal (h : 0 < exponent.toNat)
    (h' : exponent.toNat < 2047) (hm : 2 ^ 52 + mantissa.toNat = m)
    (he : exponent.toNat - 1075 = e) :
    UnpackedFloat.unpack .binary64
        (packComponents .binary64 s exponent mantissa) =
      .finite s m e hpos := by
  have hzero : exponent ≠ 0#11 := fun hexponent =>
    h.ne' (congrArg BitVec.toNat hexponent)
  have hones : exponent ≠ -1#11 := fun hexponent =>
    h'.ne (congrArg BitVec.toNat hexponent)
  rw [UnpackedFloat.unpack]
  simp only [unpackExponent_packComponents, unpackMantissa_packComponents,
    unpackSign_packComponents, Sign.ofBitVec_toBitVec, if_neg hones,
    if_neg hzero]
  exact finite_congr ((toNat_one_append mantissa).trans hm) he

private theorem unpack_packComponents_subnormal (hm : mantissa.toNat = m) :
    UnpackedFloat.unpack .binary64
        (packComponents .binary64 s 0#11 mantissa) =
      .finite s m (-1074) hpos := by
  have hmantissa : mantissa ≠ 0#52 := fun hzero =>
    hpos.ne' (hm.symm.trans (congrArg BitVec.toNat hzero))
  rw [UnpackedFloat.unpack]
  simp only [unpackExponent_packComponents, unpackMantissa_packComponents,
    unpackSign_packComponents, Sign.ofBitVec_toBitVec, dif_neg hmantissa]
  exact finite_congr hm rfl

end Pack

theorem biased_eq (e : Int) : (e + (Format.binary64.exponentBias : Nat) +
    (Format.binary64.mantissaBitsWithoutImplicit : Nat)).toNat =
      (e + 1075).toNat := by
  change (e + 1023 + 52).toNat = _
  omega

theorem unpack_pack {s : Sign} {m : Nat} {e : Int} (h : IsCanonical m e) :
    (Float.Model.pack (.finite s m e h.pos)).unpack =
      .finite s m e h.pos := by
  obtain ⟨hpos, hlt, hlow, hhigh, hfull⟩ := h
  have hexponent : (BitVec.ofNat 11 (e + 1075).toNat).toNat =
      (e + 1075).toNat := by
    rw [BitVec.toNat_ofNat]
    omega
  have hmantissa : (BitVec.ofNat 52 m).toNat = m % 2 ^ 52 :=
    BitVec.toNat_ofNat ..
  have hnormal : m.log2 + 1 = Format.binary64.mantissaBits ↔ 2 ^ 52 ≤ m := by
    change m.log2 + 1 = 53 ↔ _
    have hlog := (Nat.log2_lt hpos.ne').mpr hlt
    rw [← Nat.le_log2 hpos.ne']
    omega
  change UnpackedFloat.unpack .binary64
    (UnpackedFloat.pack .binary64 (.finite s m e hpos)) = _
  rw [UnpackedFloat.pack]
  dsimp only
  rw [biased_eq, if_neg (show ¬2048 ≤ (e + 1075).toNat + 1 by omega)]
  by_cases hm : 2 ^ 52 ≤ m
  · rw [if_pos (hnormal.mpr hm)]
    apply unpack_packComponents_normal <;>
      simp only [hexponent, hmantissa] <;> omega
  · obtain rfl : e = -1074 := by omega
    rw [if_neg (mt hnormal.mp hm)]
    apply unpack_packComponents_subnormal
    rw [hmantissa]
    omega

theorem isFinite_pack {s : Sign} {m : Nat} {e : Int} {hpos : 0 < m}
    (h : e ≤ 971) :
    (Float.Model.pack (.finite s m e hpos)).isFinite = true := by
  have hfinite {exponent : BitVec 11} {mantissa : BitVec 52}
      (h : exponent.toNat ≠ 2047) : (UnpackedFloat.unpack .binary64
        (packComponents .binary64 s exponent mantissa)).isFinite = true := by
    have hones : exponent ≠ -1#11 := fun hexponent =>
      h (congrArg BitVec.toNat hexponent)
    rw [UnpackedFloat.unpack]
    simp only [unpackExponent_packComponents, if_neg hones]
    split
    · split <;> rfl
    · rfl
  change (UnpackedFloat.unpack .binary64
    (UnpackedFloat.pack .binary64 (.finite s m e hpos))).isFinite = true
  rw [UnpackedFloat.pack]
  dsimp only
  rw [biased_eq, if_neg (show ¬2048 ≤ (e + 1075).toNat + 1 by omega)]
  split
  · refine hfinite ?_
    rw [BitVec.toNat_ofNat]
    omega
  · exact hfinite (by decide)

/-! ## Finite floats -/

/-- A number as unpacking gives it, zero included. -/
inductive IsReal : UnpackedFloat → Prop where
  | zero (s : Sign) : IsReal (.zero s)
  | finite (s : Sign) {m : Nat} {e : Int} (h : IsCanonical m e) :
      IsReal (.finite s m e h.pos)

theorem IsReal.unpack_pack {u : UnpackedFloat} (h : IsReal u) :
    (Float.Model.pack u).unpack = u := by
  cases h with
  | zero s => exact unpack_packedZero
  | finite s h => exact Number.unpack_pack h

theorem isCanonical_ofMagnitude {b : Nat} (hpos : 0 < b)
    (hfinite : b < infinite) :
    IsCanonical (Binary.ofMagnitude b).significand
      (Binary.ofMagnitude b).exponent := by
  rcases Nat.lt_or_ge b binade with hsmall | hlarge
  · rw [ofMagnitude_of_lt hsmall]
    exact ⟨hpos, hsmall.trans (by decide), le_rfl,
      show (-1074 : Int) ≤ 971 by decide, .inl rfl⟩
  · rw [ofMagnitude_of_le hlarge]
    have hbinades := one_le_div_binade hlarge
    simp only [binade, infinite] at hfinite hbinades ⊢
    constructor <;> omega

theorem isReal_unpack {x : Float} (h : x.isFinite = true) :
    IsReal x.toModel.unpack := by
  have hlt := isFinite_iff.mp h
  rcases Nat.eq_zero_or_pos (magnitude x) with hzero | hpos
  · rw [unpack_of_zero hzero]
    exact .zero _
  · rw [unpack_of_finite hpos hlt]
    exact .finite _ (isCanonical_ofMagnitude hpos hlt)

/-! ## Rounding to canonical numbers -/

/-- A mantissa and an exponent in units of the least positive float. -/
def unitsOf (m : Nat) (e : Int) : Nat := m * 2 ^ (e + 1074).toNat

theorem unitsOf_pos {m : Nat} (hm : 0 < m) (e : Int) : 0 < unitsOf m e :=
  Nat.mul_pos hm (Nat.two_pow_pos _)

theorem unitsOf_shiftLeft {m k : Nat} {e : Int} (h : -1074 ≤ e - k) :
    unitsOf (m <<< k) (e - k) = unitsOf m e := by
  rw [unitsOf, unitsOf, Nat.shiftLeft_eq, Nat.mul_assoc, ← Nat.pow_add]
  congr 2
  omega

theorem log2_shiftLeft {m : Nat} (hm : 0 < m) (k : Nat) :
    (m <<< k).log2 = m.log2 + k := by
  induction k with
  | zero => rfl
  | succ k ih =>
      have hne : m <<< k ≠ 0 := by
        rw [Nat.shiftLeft_eq]
        exact Nat.mul_ne_zero hm.ne' (Nat.two_pow_pos k).ne'
      rw [Nat.shiftLeft_succ, Nat.log2_two_mul hne, ih]
      rfl

theorem log2_unitsOf {m : Nat} {e : Int} (hm : 0 < m) (he : -1074 ≤ e) :
    ((unitsOf m e).log2 : Int) = m.log2 + e + 1074 := by
  rw [unitsOf, ← Nat.shiftLeft_eq, log2_shiftLeft hm]
  omega

theorem lastPlace_shiftLeft {m k : Nat} {e : Int} (hm : 0 < m) :
    lastPlace (m <<< k) (e - k) = lastPlace m e := by
  rw [lastPlace, lastPlace, log2_shiftLeft hm]
  omega

theorem isRounded_rounded {m : Nat} {e : Int} (hm : 0 < m) (he : -1074 ≤ e)
    (hplace : e ≤ lastPlace m e) :
    (e + dropped m e = -1074 ∨ 2 ^ 52 ≤ m / 2 ^ dropped m e) ∧
      IsRounded (unitsOf m e)
        (unitsOf (rounded m e .exact) (e + dropped m e)) := by
  have hlast : e + dropped m e = lastPlace m e := by
    rw [dropped]
    omega
  have hfull : e + dropped m e = -1074 ∨ 2 ^ 52 ≤ m / 2 ^ dropped m e := by
    rcases Nat.lt_or_ge 0 (e + dropped m e + 1074).toNat with hpos | hzero
    · right
      rw [Nat.le_div_iff_mul_le (Nat.pow_pos (by decide)), ← Nat.pow_add]
      have hdigits : 52 + dropped m e = m.log2 := by
        rw [lastPlace] at hlast
        omega
      rw [hdigits]
      exact Nat.log2_self_le hm.ne'
    · left
      have hlow := neg_le_add_dropped m e
      omega
  have hexponent : (e + dropped m e + 1074).toNat =
      dropped m e + (e + 1074).toNat := by omega
  have hquotient : unitsOf m e / 2 ^ (e + dropped m e + 1074).toNat =
      m / 2 ^ dropped m e := by
    rw [unitsOf, hexponent, Nat.pow_add,
      Nat.mul_div_mul_right _ _ (Nat.pow_pos (by decide))]
  have hbounds := rounded_bounds m e .exact
  refine ⟨hfull, isRounded_of_digits ?_ ?_ ?_ ?_⟩
  · rw [hquotient]
    omega
  · rw [hquotient]
    exact hbounds.1
  · rw [hquotient]
    exact hbounds.2
  · intro hdvd
    rw [hquotient]
    rw [unitsOf, hexponent, Nat.pow_add] at hdvd
    exact rounded_of_dvd m e
      (Nat.dvd_of_mul_dvd_mul_right (Nat.pow_pos (by decide)) hdvd)

theorem round_eq_roundWithAccuracy (s : Sign) (m : Nat) (e : Int) :
    UnpackedFloat.round .binary64 s m e =
      roundWithAccuracy .binary64 s (m <<< (e - lastPlace m e).toNat)
        (e - (e - lastPlace m e).toNat) .exact := by
  rw [UnpackedFloat.round, targetExponent_eq]
  rfl

section Range

variable {s : Sign} {m c k : Nat} {e : Int} (hm : 0 < m) (he : -1074 ≤ e)
  (hc : c ≤ 2 ^ 53) (hk : k ≤ 2044) (hrange : unitsOf m e ≤ c * 2 ^ k)
include hm he hc hk hrange

theorem exists_roundWithAccuracy (hplace : e ≤ lastPlace m e) :
    ∃ m' e', ∃ h : IsCanonical m' e',
      roundWithAccuracy .binary64 s m e .exact = .finite s m' e' h.pos ∧
        IsRounded (unitsOf m e) (unitsOf m' e') := by
  obtain ⟨hfull, hrounded⟩ := isRounded_rounded hm he hplace
  have hbounds := rounded_bounds m e .exact
  have hle := rounded_le m e .exact
  have hlow := neg_le_add_dropped m e
  rw [roundWithAccuracy_eq]
  generalize rounded m e .exact = r at *
  generalize e + (dropped m e : Int) = place at *
  have hpos : 0 < r := Nat.pos_of_mul_pos_right
    (hrounded.pos (unitsOf_pos hm e))
  have htop {j : Nat} (h : 2 ^ j ≤ r) : j + (place + 1074).toNat ≤ 53 + k := by
    rw [← Nat.pow_le_pow_iff_right (a := 2) (by decide), Nat.pow_add]
    calc 2 ^ j * 2 ^ (place + 1074).toNat
        ≤ unitsOf r place := Nat.mul_le_mul_right _ h
      _ ≤ c * 2 ^ k := hrounded.le hc hrange
      _ ≤ 2 ^ 53 * 2 ^ k := Nat.mul_le_mul_right _ hc
      _ = 2 ^ (53 + k) := (Nat.pow_add ..).symm
  rw [dif_neg hpos.ne']
  split
  · rename_i hlt
    refine ⟨r, place, ⟨hpos, hlt, hlow, ?_, by omega⟩, rfl, hrounded⟩
    rcases hfull with hfull | hfull
    · omega
    · have := htop (hfull.trans hbounds.1)
      omega
  · rename_i hge
    obtain rfl : r = 2 ^ 53 := by omega
    have := htop le_rfl
    refine ⟨2 ^ 52, place + 1, ⟨by decide, by decide, by omega, by omega,
      .inr le_rfl⟩, rfl, ?_⟩
    have hunits : unitsOf (2 ^ 52) (place + 1) = unitsOf (2 ^ 53) place := by
      have hexponent : (place + 1 + 1074).toNat = (place + 1074).toNat + 1 := by
        omega
      rw [unitsOf, unitsOf, hexponent, Nat.pow_succ]
      ring
    rwa [hunits]

theorem exists_round :
    ∃ m' e', ∃ h : IsCanonical m' e',
      UnpackedFloat.round .binary64 s m e = .finite s m' e' h.pos ∧
        IsRounded (unitsOf m e) (unitsOf m' e') := by
  have hlow : -1074 ≤ lastPlace m e := le_max_right ..
  have hpos : 0 < m <<< (e - lastPlace m e).toNat := by
    rw [Nat.shiftLeft_eq]
    exact Nat.mul_pos hm (Nat.two_pow_pos _)
  rw [round_eq_roundWithAccuracy,
    ← unitsOf_shiftLeft (k := (e - lastPlace m e).toNat) (by omega)]
  refine exists_roundWithAccuracy hpos (by omega) hc hk ?_ ?_
  · rwa [unitsOf_shiftLeft (by omega)]
  · rw [lastPlace_shiftLeft hm]
    omega

end Range

end Chartbook.Number
