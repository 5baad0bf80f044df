import Chartbook.Proofs.Number.Canonical

/-!
# The order of numbers

Floats are compared by sign and magnitude, as in their total order.  The two
orders differ for NaN, which is comparable to nothing, and for the two zeros,
which are equal.  A sum that starts from zero is never the negative zero, so
sums that are numbers are ordered by rank.
-/

namespace Chartbook.Number

open Float.Model Float.Model.UnpackedFloat

variable {x y : Float}

/-! ## Signs and sizes -/

private theorem toNat_unpackSign (x : Float) :
    (@unpackSign .binary64 x.toBits.toBitVec).toNat =
      if isNegative x then 1 else 0 := by
  have hlt : x.toBits.toNat < 2 ^ 64 := x.toBits.toNat_lt
  have hbits : (@unpackSign .binary64 x.toBits.toBitVec).toNat =
      x.toBits.toNat / 2 ^ 63 % 2 ^ 1 := by
    simp only [unpackSign, BitVec.toNat_cast, BitVec.extractLsb_toNat,
      Nat.shiftRight_eq_div_pow]
    rfl
  rw [hbits, isNegative, signBit]
  by_cases h : 0x8000000000000000 ≤ x.toBits.toNat
  · rw [decide_eq_true h, if_pos rfl]
    omega
  · rw [decide_eq_false h, if_neg Bool.false_ne_true]
    omega

theorem signOf_eq (x : Float) :
    signOf x = if isNegative x then .negative else .positive := by
  have hbit := toNat_unpackSign x
  rw [signOf]
  cases hsign : isNegative x with
  | true =>
      rw [hsign] at hbit
      rw [show @unpackSign .binary64 x.toBits.toBitVec = 1#1 from
        BitVec.eq_of_toNat_eq hbit]
      rfl
  | false =>
      rw [hsign] at hbit
      rw [show @unpackSign .binary64 x.toBits.toBitVec = 0#1 from
        BitVec.eq_of_toNat_eq hbit]
      rfl

theorem unpack_eq_negativeZero_iff :
    x.toModel.unpack = .zero .negative ↔ x = -0.0 := by
  constructor
  · intro h
    have hbits : x.toBits = (-0.0 : Float).toBits :=
      UInt64.toBitVec_inj.mp
        ((unpack_eq_zero_iff_of_valid x.toModel.valid).mp h)
    rw [← x.ofBits_toBits, hbits, Float.ofBits_toBits]
  · rintro rfl
    rfl

theorem unpack_of_infinite (h : magnitude x = infinite) :
    x.toModel.unpack = .infinity (signOf x) := by
  have hexponent := exponentField_eq_neg_one_iff.mpr h.ge
  have hmantissa : mantissaField x = 0#52 := by
    rw [mantissaField_eq_zero_iff, h]
    rfl
  change UnpackedFloat.unpack .binary64 x.toBits.toBitVec = _
  rw [UnpackedFloat.unpack]
  dsimp only
  rw [if_pos hexponent, if_pos hmantissa]
  rfl

private theorem magnitude_cases (h : x.isNaN = false) :
    magnitude x = 0 ∨ (0 < magnitude x ∧ magnitude x < infinite) ∨
      magnitude x = infinite := by
  have hle : ¬infinite < magnitude x := by
    rw [← isNaN_iff, h]
    exact Bool.false_ne_true
  omega

/-! ## Comparison -/

private theorem compare_ofMagnitude (a b : Nat) :
    (compare (Binary.ofMagnitude a).exponent
        (Binary.ofMagnitude b).exponent).then
      (compare (Binary.ofMagnitude a).significand
        (Binary.ofMagnitude b).significand) = compare a b := by
  have hlt {a b : Nat} (h : a < b) :
      (Binary.ofMagnitude a).exponent < (Binary.ofMagnitude b).exponent ∨
        (Binary.ofMagnitude a).exponent = (Binary.ofMagnitude b).exponent ∧
          (Binary.ofMagnitude a).significand <
            (Binary.ofMagnitude b).significand := by
    unfold Binary.ofMagnitude binade
    split <;> split <;> dsimp only <;> omega
  rcases Nat.lt_trichotomy a b with h | rfl | h
  · rw [compare_lt_iff_lt.mpr h]
    rcases hlt h with hexponent | ⟨hexponent, hsignificand⟩
    · rw [compare_lt_iff_lt.mpr hexponent]
      rfl
    · rw [compare_eq_iff_eq.mpr hexponent,
        compare_lt_iff_lt.mpr hsignificand]
      rfl
  · simp
  · rw [compare_gt_iff_gt.mpr h]
    rcases hlt h with hexponent | ⟨hexponent, hsignificand⟩
    · rw [compare_gt_iff_gt.mpr hexponent]
      rfl
    · rw [compare_eq_iff_eq.mpr hexponent.symm,
        compare_gt_iff_gt.mpr hsignificand]
      rfl

private theorem compare_unpack_of_pos (hx : x.isNaN = false)
    (hy : y.isNaN = false) (hpos : 0 < magnitude x ∨ 0 < magnitude y) :
    x.toModel.unpack.compare y.toModel.unpack =
      some (match signOf x, signOf y with
        | .positive, .positive => compare (magnitude x) (magnitude y)
        | .negative, .negative => (compare (magnitude x) (magnitude y)).swap
        | .negative, .positive => .lt
        | .positive, .negative => .gt) := by
  rcases magnitude_cases hx with h₁ | ⟨h₁, h₁'⟩ | h₁
  · rcases magnitude_cases hy with h₂ | ⟨h₂, h₂'⟩ | h₂
    · omega
    · rw [unpack_of_zero h₁, unpack_of_finite h₂ h₂', h₁,
        Nat.compare_eq_lt.mpr h₂]
      cases signOf x <;> cases signOf y <;> rfl
    · rw [unpack_of_zero h₁, unpack_of_infinite h₂, h₁, h₂]
      cases signOf x <;> cases signOf y <;> rfl
  · rcases magnitude_cases hy with h₂ | ⟨h₂, h₂'⟩ | h₂
    · rw [unpack_of_finite h₁ h₁', unpack_of_zero h₂, h₂,
        Nat.compare_eq_gt.mpr h₁]
      cases signOf x <;> cases signOf y <;> rfl
    · rw [unpack_of_finite h₁ h₁', unpack_of_finite h₂ h₂',
        ← compare_ofMagnitude]
      cases signOf x <;> cases signOf y <;> rfl
    · rw [unpack_of_finite h₁ h₁', unpack_of_infinite h₂, h₂,
        Nat.compare_eq_lt.mpr h₁']
      cases signOf x <;> cases signOf y <;> rfl
  · rcases magnitude_cases hy with h₂ | ⟨h₂, h₂'⟩ | h₂
    · rw [unpack_of_infinite h₁, unpack_of_zero h₂, h₁, h₂]
      cases signOf x <;> cases signOf y <;> rfl
    · rw [unpack_of_infinite h₁, unpack_of_finite h₂ h₂', h₁,
        Nat.compare_eq_gt.mpr h₂']
      cases signOf x <;> cases signOf y <;> rfl
    · rw [unpack_of_infinite h₁, unpack_of_infinite h₂, h₁, h₂]
      cases signOf x <;> cases signOf y <;> rfl

def signedMagnitude (x : Float) : Int :=
  if isNegative x then -(magnitude x : Int) else magnitude x

theorem magnitude_eq_zero_iff : magnitude x = 0 ↔ x = 0.0 ∨ x = -0.0 := by
  constructor
  · intro h
    have hx := ofMagnitude_magnitude x
    rw [h] at hx
    cases hsign : isNegative x with
    | true =>
        rw [hsign] at hx
        exact .inr hx.symm
    | false =>
        rw [hsign] at hx
        exact .inl hx.symm
  · rintro (rfl | rfl) <;> rfl

theorem eq_or_zeros_of_signedMagnitude_eq
    (h : signedMagnitude x = signedMagnitude y) :
    x = y ∨ (x = 0.0 ∧ y = -0.0) ∨ (x = -0.0 ∧ y = 0.0) := by
  by_cases hrank : rank x = rank y
  · exact .inl (eq_of_rank_eq hrank)
  · have hzero : magnitude x = 0 ∧ magnitude y = 0 := by
      revert h hrank
      unfold signedMagnitude rank
      cases isNegative x <;> cases isNegative y <;>
        simp only [if_true, if_false, Bool.false_eq_true] <;> omega
    have hx := magnitude_eq_zero_iff.mp hzero.1
    have hy := magnitude_eq_zero_iff.mp hzero.2
    rcases hx with rfl | rfl <;> rcases hy with rfl | rfl <;> simp

section Numbers

variable (hx : x.isNaN = false) (hy : y.isNaN = false)
include hx hy

theorem compare_unpack :
    x.toModel.unpack.compare y.toModel.unpack =
      some (compare (signedMagnitude x) (signedMagnitude y)) := by
  by_cases hzero : magnitude x = 0 ∧ magnitude y = 0
  · obtain ⟨h₁, h₂⟩ := hzero
    rw [unpack_of_zero h₁, unpack_of_zero h₂, signedMagnitude,
      signedMagnitude, h₁, h₂]
    cases isNegative x <;> cases isNegative y <;> rfl
  · rw [compare_unpack_of_pos hx hy (by omega), signOf_eq, signOf_eq,
      signedMagnitude, signedMagnitude, Option.some.injEq]
    simp only [Nat.compare_swap]
    simp only [Nat.compare_eq_ite_lt, Int.compare_eq_ite_lt]
    cases isNegative x <;> cases isNegative y <;>
      simp only [if_true, if_false, Bool.false_eq_true] <;> grind

theorem le_iff_signedMagnitude_le :
    x ≤ y ↔ signedMagnitude x ≤ signedMagnitude y := by
  have hle : x ≤ y ↔
      (x.toModel.unpack.compare y.toModel.unpack).any (·.isLE) = true := by
    change decide (x.toModel ≤ y.toModel) = true ↔ _
    rw [decide_eq_true_iff]
    rfl
  rw [hle, compare_unpack hx hy, Option.any_some, Int.isLE_compare]

theorem lt_iff_signedMagnitude_lt :
    x < y ↔ signedMagnitude x < signedMagnitude y := by
  have hlt : x < y ↔
      (x.toModel.unpack.compare y.toModel.unpack == some .lt) = true := by
    change decide (x.toModel < y.toModel) = true ↔ _
    rw [decide_eq_true_iff]
    rfl
  rw [hlt, compare_unpack hx hy, beq_iff_eq, Option.some.injEq,
    compare_lt_iff_lt]

end Numbers

/-- A number that compares as its rank does: neither NaN nor the negative
zero. -/
structure IsOrdered (x : Float) : Prop where
  notNaN : x.isNaN = false
  ne_negativeZero : x ≠ -0.0

theorem IsOrdered.magnitude_pos (hx : IsOrdered x)
    (h : isNegative x = true) : 0 < magnitude x := by
  refine Nat.pos_of_ne_zero fun hzero => ?_
  rcases magnitude_eq_zero_iff.mp hzero with rfl | rfl
  · contradiction
  · exact hx.ne_negativeZero rfl

section Ordered

variable (hx : IsOrdered x) (hy : IsOrdered y)
include hx hy

theorem le_iff_rank_le : x ≤ y ↔ rank x ≤ rank y := by
  have hxpos := hx.magnitude_pos
  have hypos := hy.magnitude_pos
  rw [le_iff_signedMagnitude_le hx.notNaN hy.notNaN]
  unfold signedMagnitude rank
  cases hxsign : isNegative x <;> cases hysign : isNegative y <;>
    simp only [hxsign, hysign, if_true, if_false, Bool.false_eq_true,
      forall_const] at hxpos hypos ⊢ <;> omega

theorem beq_eq_true_iff : (x == y) = true ↔ x = y := by
  change (x.toModel.unpack.compare y.toModel.unpack == some .eq) = true ↔ _
  rw [compare_unpack hx.notNaN hy.notNaN, beq_iff_eq, Option.some.injEq,
    compare_eq_iff_eq]
  constructor
  · intro h
    rcases eq_or_zeros_of_signedMagnitude_eq h with
      heq | ⟨-, hzero⟩ | ⟨hzero, -⟩
    · exact heq
    · exact absurd hzero hy.ne_negativeZero
    · exact absurd hzero hx.ne_negativeZero
  · exact congrArg signedMagnitude

end Ordered

/-! ## Sums -/

private theorem round_cases (s : Sign) {m : Nat} {e : Int} (hm : 0 < m)
    (he : -1074 ≤ e) :
    ∃ m' e' h, UnpackedFloat.round .binary64 s m e = .finite s m' e' h ∧
      (IsCanonical m' e' ∨ 971 < e') := by
  have hlow : -1074 ≤ lastPlace m e := le_max_right ..
  have hpos : 0 < m <<< (e - lastPlace m e).toNat := by
    rw [Nat.shiftLeft_eq]
    exact Nat.mul_pos hm (Nat.two_pow_pos _)
  have hplace : e - (e - lastPlace m e).toNat ≤
      lastPlace (m <<< (e - lastPlace m e).toNat)
        (e - (e - lastPlace m e).toNat) := by
    rw [lastPlace_shiftLeft hm]
    omega
  have he' : -1074 ≤ e - (e - lastPlace m e).toNat := by omega
  rw [round_eq_roundWithAccuracy]
  generalize m <<< (e - lastPlace m e).toNat = m' at *
  generalize e - ((e - lastPlace m e).toNat : Int) = e' at *
  obtain ⟨hfull, hrounded⟩ := isRounded_rounded hpos he' hplace
  have hbounds := rounded_bounds m' e' .exact
  have hlast := neg_le_add_dropped m' e'
  have hne : 0 < rounded m' e' .exact := Nat.pos_of_mul_pos_right
    (hrounded.pos (unitsOf_pos hpos e'))
  rw [roundWithAccuracy_eq, dif_neg hne.ne']
  split
  · rename_i hlt
    refine ⟨_, _, hne, rfl, ?_⟩
    by_cases hhigh : e' + dropped m' e' ≤ 971
    · exact .inl ⟨hne, hlt, hlast, hhigh, by omega⟩
    · exact .inr (by omega)
  · refine ⟨2 ^ 52, _, by decide, rfl, ?_⟩
    by_cases hhigh : e' + dropped m' e' + 1 ≤ 971
    · exact .inl ⟨by decide, by decide, by omega, hhigh, .inr le_rfl⟩
    · exact .inr (by omega)

theorem unpack_pack_infinite (s : Sign) {m : Nat} {e : Int} {hpos : 0 < m}
    (h : 971 < e) :
    (Float.Model.pack (.finite s m e hpos)).unpack = .infinity s := by
  change UnpackedFloat.unpack .binary64
    (UnpackedFloat.pack .binary64 (.finite s m e hpos)) = _
  rw [UnpackedFloat.pack]
  dsimp only
  rw [biased_eq, if_pos (show 2048 ≤ (e + 1075).toNat + 1 by omega)]
  rw [packedInfinity, UnpackedFloat.unpack]
  simp only [unpackExponent_packComponents, unpackMantissa_packComponents,
    unpackSign_packComponents, Sign.ofBitVec_toBitVec]
  rfl

private theorem unpack_pack_round_ne_zero (s s' : Sign) {m : Nat} {e : Int}
    (hm : 0 < m) (he : -1074 ≤ e) :
    (Float.Model.pack (UnpackedFloat.round .binary64 s m e)).unpack ≠
      .zero s' := by
  obtain ⟨m', e', h, hround, hcanonical | hlarge⟩ := round_cases s hm he
  · rw [hround, unpack_pack hcanonical]
    exact UnpackedFloat.noConfusion
  · rw [hround, unpack_pack_infinite s hlarge]
    exact UnpackedFloat.noConfusion

private theorem unpack_pack_normalize_ne (z : Int) {e : Int} (he : -1074 ≤ e) :
    (Float.Model.pack (UnpackedFloat.normalize .binary64 z e
      .positive)).unpack ≠ .zero .negative := by
  rw [UnpackedFloat.normalize]
  rcases Int.lt_trichotomy z 0 with hz | rfl | hz
  · rw [compare_lt_iff_lt.mpr hz]
    exact unpack_pack_round_ne_zero _ _ (by omega) he
  · exact fun h => Sign.noConfusion
      (UnpackedFloat.zero.inj (unpack_packedZero.symm.trans h))
  · rw [compare_gt_iff_gt.mpr hz]
    exact unpack_pack_round_ne_zero _ _ (by omega) he

private theorem isFinite_add_eq_false {u v : UnpackedFloat}
    (h : u.isFinite = false ∨ v.isFinite = false) :
    (UnpackedFloat.add .binary64 u v).isFinite = false := by
  cases u with
  | notANumber => rfl
  | infinity s =>
      cases v with
      | infinity t =>
          rw [UnpackedFloat.add]
          split <;> rfl
      | notANumber | zero | finite => rfl
  | zero s | finite =>
      cases v with
      | notANumber | infinity => rfl
      | zero | finite => rcases h with h | h <;> contradiction

private theorem unpack_pack_ne_zero {u : UnpackedFloat} (h : u.isFinite = false)
    (s : Sign) : (Float.Model.pack u).unpack ≠ .zero s := by
  have hfinite : (Float.Model.pack u).unpack.isFinite = false := by
    cases u with
    | notANumber => decide +kernel
    | infinity s => cases s <;> decide +kernel
    | zero | finite => contradiction
  intro hzero
  rw [hzero] at hfinite
  contradiction

private theorem add_ne_negativeZero (h : x ≠ -0.0) (y : Float) :
    x + y ≠ -0.0 := by
  rw [ne_eq, ← unpack_eq_negativeZero_iff] at h ⊢
  change (Float.Model.pack (UnpackedFloat.add .binary64 x.toModel.unpack
    y.toModel.unpack)).unpack ≠ _
  by_cases hfinite : x.isFinite = true ∧ y.isFinite = true
  · have hx := isReal_unpack hfinite.1
    have hy := isReal_unpack hfinite.2
    generalize x.toModel.unpack = u at h hx
    generalize y.toModel.unpack = v at hy
    cases hx with
    | zero s =>
        cases s with
        | negative => exact absurd rfl h
        | positive =>
            cases hy with
            | zero t => cases t <;> exact fun h => nomatch h
            | finite t hy =>
                exact (unpack_pack hy).trans_ne UnpackedFloat.noConfusion
    | finite s hx =>
        cases hy with
        | zero t => exact (unpack_pack hx).trans_ne UnpackedFloat.noConfusion
        | finite t hy =>
            exact unpack_pack_normalize_ne _
              (le_min hx.le_place hy.le_place)
  · rw [not_and_or, Bool.not_eq_true, Bool.not_eq_true] at hfinite
    exact unpack_pack_ne_zero (isFinite_add_eq_false hfinite) _

theorem foldl_add_ne_negativeZero (h : x ≠ -0.0) (ys : List Float) :
    ys.foldl (· + ·) x ≠ -0.0 := by
  induction ys generalizing x with
  | nil => exact h
  | cons y ys ih => exact ih (add_ne_negativeZero h y)

end Chartbook.Number
