import Chartbook.Number.Binary
import Mathlib

/-!
# Floats and their bits

A float is its sign and its magnitude: putting the two together again gives back
every bit of it.  The magnitude also says what kind of number it is, so that a
quotient by a finite number other than zero is not a number only if its dividend
is none.
-/

namespace Chartbook.Number

open Float.Model Float.Model.UnpackedFloat

theorem magnitude_lt (x : Float) : magnitude x < signBit :=
  Nat.mod_lt _ (by decide)

theorem ofMagnitude_of_lt {b : Nat} (h : b < binade) :
    Binary.ofMagnitude b = ⟨b, -1074⟩ := if_pos h

theorem ofMagnitude_of_le {b : Nat} (h : binade ≤ b) :
    Binary.ofMagnitude b =
      ⟨binade + b % binade, (b / binade : Nat) - 1075⟩ :=
  if_neg (Nat.not_lt.mpr h)

theorem one_le_div_binade {b : Nat} (h : binade ≤ b) : 1 ≤ b / binade :=
  (Nat.le_div_iff_mul_le (by decide)).mpr (by omega)

theorem significand_pos {b : Nat} (h : 0 < b) :
    0 < (Binary.ofMagnitude b).significand := by
  rw [Binary.ofMagnitude, binade]
  split
  · exact h
  · dsimp only
    omega

/-!
## The fields of the bits

The parts of a float are those that the logic of floats has for it.
-/

theorem toNat_unpackExponent (v : BitVec 64) :
    (@unpackExponent .binary64 v).toNat = v.toNat / 2 ^ 52 % 2 ^ 11 := by
  simp only [unpackExponent, BitVec.toNat_cast, BitVec.extractLsb_toNat,
    Nat.shiftRight_eq_div_pow]

theorem toNat_unpackMantissa (v : BitVec 64) :
    (@unpackMantissa .binary64 v).toNat = v.toNat % 2 ^ 52 := by
  simp only [unpackMantissa, BitVec.toNat_cast, BitVec.extractLsb_toNat,
    Nat.shiftRight_eq_div_pow]
  simp

def signOf (x : Float) : Sign :=
  .ofBitVec (@unpackSign .binary64 x.toBits.toBitVec)

abbrev exponentField (x : Float) : BitVec 11 :=
  @unpackExponent .binary64 x.toBits.toBitVec

abbrev mantissaField (x : Float) : BitVec 52 :=
  @unpackMantissa .binary64 x.toBits.toBitVec

section Fields

variable {x : Float}

theorem toNat_exponentField (x : Float) :
    (exponentField x).toNat = magnitude x / binade := by
  have hbits : (exponentField x).toNat = x.toBits.toNat / 2 ^ 52 % 2 ^ 11 :=
    toNat_unpackExponent x.toBits.toBitVec
  rw [hbits, magnitude, signBit, binade]
  omega

theorem toNat_mantissaField (x : Float) :
    (mantissaField x).toNat = magnitude x % binade := by
  have hbits : (mantissaField x).toNat = x.toBits.toNat % 2 ^ 52 :=
    toNat_unpackMantissa x.toBits.toBitVec
  rw [hbits, magnitude, signBit, binade]
  omega

theorem exponentField_eq_neg_one_iff :
    exponentField x = -1#11 ↔ infinite ≤ magnitude x := by
  have hlt := magnitude_lt x
  rw [signBit] at hlt
  rw [← BitVec.toNat_inj, toNat_exponentField]
  change magnitude x / 0x10000000000000 = 2047 ↔
    0x7FF0000000000000 ≤ magnitude x
  omega

theorem exponentField_eq_zero_iff :
    exponentField x = 0#11 ↔ magnitude x < binade := by
  rw [← BitVec.toNat_inj, toNat_exponentField]
  change magnitude x / 0x10000000000000 = 0 ↔ magnitude x < 0x10000000000000
  omega

theorem mantissaField_eq_zero_iff :
    mantissaField x = 0#52 ↔ magnitude x % binade = 0 := by
  rw [← BitVec.toNat_inj, toNat_mantissaField]
  rfl

theorem isNaNBits_iff :
    @isNaNBits .binary64 x.toBits.toBitVec = true ↔
      infinite < magnitude x := by
  have hlt := magnitude_lt x
  rw [isNaNBits, decide_eq_true_eq]
  change exponentField x = -1#11 ∧ ¬mantissaField x = 0#52 ↔ _
  rw [exponentField_eq_neg_one_iff, mantissaField_eq_zero_iff]
  simp only [signBit, infinite, binade] at hlt ⊢
  omega

end Fields

/-! ## What a float stands for -/

theorem toNat_one_append {width : Nat} (v : BitVec width) :
    (1#1 ++ v).toNat = 2 ^ width + v.toNat := by
  rw [BitVec.toNat_append, ← Nat.shiftLeft_add_eq_or_of_lt v.isLt,
    Nat.shiftLeft_eq]
  simp

section Unpack

variable {x : Float}

theorem unpack_of_finite (hpos : 0 < magnitude x)
    (h : magnitude x < infinite) :
    x.toModel.unpack = .finite (signOf x)
      (Binary.ofMagnitude (magnitude x)).significand
      (Binary.ofMagnitude (magnitude x)).exponent (significand_pos hpos) := by
  have hfinite : ¬exponentField x = -1#11 := by
    rw [exponentField_eq_neg_one_iff]
    exact Nat.not_le.mpr h
  change UnpackedFloat.unpack .binary64 x.toBits.toBitVec = _
  rw [UnpackedFloat.unpack]
  dsimp only
  rw [if_neg hfinite]
  by_cases hsmall : magnitude x < binade
  · have hmantissa : ¬mantissaField x = 0#52 := by
      rw [mantissaField_eq_zero_iff, Nat.mod_eq_of_lt hsmall]
      omega
    rw [if_pos (exponentField_eq_zero_iff.mpr hsmall), dif_neg hmantissa]
    simp only [toNat_exponentField, toNat_mantissaField, Binary.ofMagnitude,
      hsmall, if_true, Nat.mod_eq_of_lt hsmall, Nat.div_eq_of_lt hsmall]
    rfl
  · rw [if_neg (mt exponentField_eq_zero_iff.mp hsmall)]
    simp only [toNat_one_append, toNat_exponentField, toNat_mantissaField,
      Binary.ofMagnitude, hsmall, if_false]
    rfl

theorem isNaN_iff : x.isNaN = true ↔ infinite < magnitude x := by
  change x.toModel.unpack.isNaN = true ↔ _
  rw [← isNaNBits_iff]
  refine (isNaN_unpack_iff_of_valid x.toModel.valid).trans ⟨?_, ?_⟩
  · intro h
    change @isNaNBits .binary64 x.toModel.toBits.toBitVec = true
    rw [h]
    exact isNaNBits_packedNaN
  · intro h
    rw [isNaNBits, decide_eq_true_eq] at h
    exact x.toModel.valid.eq_packedNaN h.1 h.2

end Unpack

theorem ofMagnitude_magnitude (x : Float) :
    ofMagnitude (isNegative x) (magnitude x) = x := by
  have hbits : (if isNegative x then signBit + magnitude x
      else magnitude x) = x.toBits.toNat := by
    have hlt : x.toBits.toNat < 2 ^ 64 := x.toBits.toNat_lt
    by_cases hsign : signBit ≤ x.toBits.toNat
    · simp only [isNegative, hsign, decide_true, if_true, magnitude]
      rw [signBit] at hsign ⊢
      omega
    · simp only [isNegative, hsign, decide_false, Bool.false_eq_true, if_false,
        magnitude]
      exact Nat.mod_eq_of_lt (Nat.not_le.mp hsign)
  rw [ofMagnitude, hbits, UInt64.ofNat_toNat, Float.ofBits_toBits]

private theorem valid_of_magnitude_le {bits : UInt64}
    (h : bits.toNat % signBit ≤ infinite) :
    Format.binary64.Valid bits.toBitVec where
  eq_packedNaN hexponent hmantissa := by
    refine absurd (BitVec.toNat_inj.mp ?_) hmantissa
    have hvalue := congrArg BitVec.toNat hexponent
    rw [toNat_unpackExponent] at hvalue
    rw [toNat_unpackMantissa]
    change bits.toNat / 2 ^ 52 % 2 ^ 11 = 2047 at hvalue
    change bits.toNat % 2 ^ 52 = 0
    rw [signBit, infinite] at h
    omega

theorem toBits_ofMagnitude (negative : Bool) {b : Nat} (h : b ≤ infinite) :
    (ofMagnitude negative b).toBits.toNat =
      if negative then signBit + b else b := by
  rw [infinite] at h
  have hrange : (if negative then signBit + b else b) < 2 ^ 64 := by
    rw [signBit]
    split <;> omega
  have hmagnitude : (if negative then signBit + b else b) % signBit = b := by
    rw [signBit]
    split <;> omega
  have hword := UInt64.toNat_ofNat_of_lt' hrange
  have hvalid := @valid_of_magnitude_le
    (UInt64.ofNat (if negative then signBit + b else b))
    (by rwa [hword, hmagnitude])
  have hfloat : ofMagnitude negative b = ⟨⟨_, hvalid⟩⟩ :=
    Float.ofBits_toBits ⟨⟨_, hvalid⟩⟩
  rw [hfloat]
  exact hword

theorem magnitude_ofMagnitude (negative : Bool) {b : Nat} (h : b ≤ infinite) :
    magnitude (ofMagnitude negative b) = b := by
  rw [magnitude, toBits_ofMagnitude negative h, signBit]
  rw [infinite] at h
  split <;> omega

theorem isNegative_ofMagnitude (negative : Bool) {b : Nat}
    (h : b ≤ infinite) :
    isNegative (ofMagnitude negative b) = negative := by
  rw [isNegative, toBits_ofMagnitude negative h, signBit]
  rw [infinite] at h
  cases negative with
  | true => exact decide_eq_true (Nat.le_add_right _ _)
  | false => exact decide_eq_false (by simp; omega)

theorem isNaN_ofMagnitude (negative : Bool) {b : Nat} (h : b ≤ infinite) :
    (ofMagnitude negative b).isNaN = false := by
  refine Bool.eq_false_iff.mpr fun hnan => ?_
  rw [isNaN_iff, magnitude_ofMagnitude negative h] at hnan
  exact Nat.not_lt.mpr h hnan

theorem eq_of_rank_eq {x y : Float} (h : rank x = rank y) : x = y := by
  have hparts : isNegative x = isNegative y ∧ magnitude x = magnitude y := by
    cases hx : isNegative x <;> cases hy : isNegative y <;>
      simp [rank, hx, hy] at h ⊢ <;> omega
  rw [← ofMagnitude_magnitude x, hparts.1, hparts.2, ofMagnitude_magnitude]

/-! ## Quotients -/

private theorem isNaN_unpack_packComponents {s : Sign} {exponent : BitVec 11}
    {mantissa : BitVec 52} (h : exponent = -1#11 → mantissa = 0#52) :
    (UnpackedFloat.unpack .binary64
      (packComponents .binary64 s exponent mantissa)).isNaN = false := by
  rw [UnpackedFloat.unpack]
  simp only [unpackExponent_packComponents, unpackMantissa_packComponents]
  split
  · rename_i hexponent
    rw [if_pos (h hexponent)]
    rfl
  · split
    · split <;> rfl
    · rfl

private theorem isNaN_pack {u : UnpackedFloat} (h : u.isNaN = false) :
    (Float.Model.pack u).isNaN = false := by
  change (UnpackedFloat.unpack .binary64
    (UnpackedFloat.pack .binary64 u)).isNaN = false
  cases u with
  | notANumber => contradiction
  | infinity s => exact isNaN_unpack_packComponents fun _ => rfl
  | zero s => exact isNaN_unpack_packComponents fun _ => rfl
  | finite s m e hm =>
      rw [UnpackedFloat.pack]
      dsimp only
      generalize (e + (Format.binary64.exponentBias : Nat) +
        (Format.binary64.mantissaBitsWithoutImplicit : Nat)).toNat = biased
      split
      · exact isNaN_unpack_packComponents fun _ => rfl
      · rename_i hoverflow
        have hlt : biased < 2047 := by
          change ¬2048 ≤ biased + 1 at hoverflow
          omega
        split
        · refine isNaN_unpack_packComponents fun hexponent => ?_
          have hbiased := congrArg BitVec.toNat hexponent
          rw [BitVec.toNat_ofNat,
            Nat.mod_eq_of_lt (Nat.lt_succ_of_lt hlt)] at hbiased
          exact absurd hbiased (Nat.ne_of_lt hlt)
        · refine isNaN_unpack_packComponents fun hexponent => ?_
          contradiction

private theorem isNaN_roundWithAccuracy (s : Sign) (m : Nat) (e : Int)
    (accuracy : Accuracy) :
    (roundWithAccuracy .binary64 s m e accuracy).isNaN = false := by
  rw [roundWithAccuracy]
  dsimp only
  split <;> rfl

theorem isNaN_div {x y : Float} (hx : x.isNaN = false)
    (hpos : 0 < magnitude y) (hfinite : magnitude y < infinite) :
    (x / y).isNaN = false := by
  have hquotient : (UnpackedFloat.div .binary64 x.toModel.unpack
      y.toModel.unpack).isNaN = false := by
    have hdividend : x.toModel.unpack.isNaN = false := hx
    rw [unpack_of_finite hpos hfinite]
    generalize x.toModel.unpack = u at hdividend
    cases u with
    | notANumber => contradiction
    | infinity s => rfl
    | zero s => rfl
    | finite s m e h => exact isNaN_roundWithAccuracy ..
  exact isNaN_pack hquotient

end Chartbook.Number
