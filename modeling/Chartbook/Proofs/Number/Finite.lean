import Chartbook.Proofs.Number.Bits

/-!
# Finite numbers

A number is finite exactly if its magnitude is below that of infinity.
-/

namespace Chartbook.Number

open Float.Model Float.Model.UnpackedFloat

theorem unpack_of_zero {x : Float} (h : magnitude x = 0) :
    x.toModel.unpack = .zero (signOf x) := by
  have hfinite : ¬exponentField x = -1#11 := by
    rw [exponentField_eq_neg_one_iff, h]
    decide
  have hexponent : exponentField x = 0#11 := by
    rw [exponentField_eq_zero_iff, h]
    decide
  have hmantissa : mantissaField x = 0#52 := by
    rw [mantissaField_eq_zero_iff, h]
    rfl
  change UnpackedFloat.unpack .binary64 x.toBits.toBitVec = _
  rw [UnpackedFloat.unpack]
  dsimp only
  rw [if_neg hfinite, if_pos hexponent, dif_pos hmantissa]
  rfl

theorem isFinite_iff {x : Float} :
    x.isFinite = true ↔ magnitude x < infinite := by
  change x.toModel.unpack.isFinite = true ↔ _
  constructor
  · intro h
    refine Nat.not_le.mp fun hinfinite => ?_
    have hexponent := exponentField_eq_neg_one_iff.mpr hinfinite
    change (UnpackedFloat.unpack .binary64
      x.toBits.toBitVec).isFinite = true at h
    rw [UnpackedFloat.unpack] at h
    dsimp only at h
    rw [if_pos hexponent] at h
    split at h <;> contradiction
  · intro h
    rcases Nat.eq_zero_or_pos (magnitude x) with hzero | hpos
    · rw [unpack_of_zero hzero]
      rfl
    · rw [unpack_of_finite hpos h]
      rfl

theorem isNaN_of_isFinite {x : Float} (h : x.isFinite = true) :
    x.isNaN = false := by
  refine Bool.eq_false_iff.mpr fun hnan => ?_
  exact Nat.lt_asymm (isNaN_iff.mp hnan) (isFinite_iff.mp h)

end Chartbook.Number
