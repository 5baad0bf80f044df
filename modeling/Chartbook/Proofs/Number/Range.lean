import Chartbook.Proofs.Number.Canonical
import Chartbook.Proofs.Number.Nearest

/-!
# Numbers within a range

Sums of numbers that are multiples of a power of two are multiples of it again,
and they grow no faster than their number of terms.  So sums and quotients of
numbers of moderate size stay finite.
-/

namespace Chartbook.Number

open Float.Model Float.Model.UnpackedFloat

/-! ## Amounts -/

/-- The value of a number in units of the least positive float. -/
def amount : UnpackedFloat → Int
  | .finite s m e _ => s.apply (unitsOf m e)
  | _ => 0

theorem natAbs_apply (s : Sign) (n : Nat) : (s.apply n).natAbs = n := by
  cases s with
  | negative => exact Int.natAbs_neg n
  | positive => rfl

theorem apply_neg (s : Sign) (n : Int) : (-s).apply n = -s.apply n := by
  cases s with
  | negative => exact (Int.neg_neg n).symm
  | positive => rfl

theorem apply_mul (s : Sign) (a b : Int) : s.apply (a * b) = s.apply a * b := by
  cases s with
  | negative => exact (Int.neg_mul a b).symm
  | positive => rfl

theorem IsRounded.refl (n : Nat) : IsRounded n n where
  dvd h := h
  le _ h := h
  pos h := h

structure RoundsTo (n : Int) (u : UnpackedFloat) : Prop where
  isReal : IsReal u
  isRounded : IsRounded n.natAbs (amount u).natAbs

theorem IsReal.roundsTo {u : UnpackedFloat} (h : IsReal u) :
    RoundsTo (amount u) u :=
  ⟨h, .refl _⟩

theorem roundsTo_normalize {z e : Int} {t c k : Nat} (ht : e + 1074 = t)
    (hc : c ≤ 2 ^ 53) (hk : k ≤ 2044)
    (hrange : (z * 2 ^ t).natAbs ≤ c * 2 ^ k) :
    RoundsTo (z * 2 ^ t)
      (UnpackedFloat.normalize .binary64 z e .positive) := by
  have hunits : (z * 2 ^ t).natAbs = unitsOf z.natAbs e := by
    rw [Int.natAbs_mul, Int.natAbs_pow, unitsOf, ht, Int.toNat_natCast]
    rfl
  have hround (s : Sign) (hz : 0 < z.natAbs) :
      RoundsTo (z * 2 ^ t)
        (UnpackedFloat.round .binary64 s z.natAbs e) := by
    obtain ⟨m, e', h, heq, hrounded⟩ := @exists_round s _ c k e hz (by omega)
      hc hk (hunits ▸ hrange)
    rw [heq]
    refine ⟨.finite s h, ?_⟩
    rw [hunits, amount, natAbs_apply]
    exact hrounded
  rw [UnpackedFloat.normalize]
  rcases lt_trichotomy z 0 with hz | rfl | hz
  · rw [compare_lt_iff_lt.mpr hz]
    have := hround .negative (by omega)
    rwa [show z.natAbs = (-z).toNat by omega] at this
  · rw [compare_eq_iff_eq.mpr rfl, Int.zero_mul]
    exact ⟨.zero _, .refl _⟩
  · rw [compare_gt_iff_gt.mpr hz]
    have := hround .positive (by omega)
    rwa [show z.natAbs = z.toNat by omega] at this

private theorem apply_decreaseExponent (s : Sign) {m : Nat} {e target : Int}
    (hlow : -1074 ≤ target) (hle : target ≤ e) :
    s.apply (decreaseExponent m e target).1 * 2 ^ (target + 1074).toNat =
      s.apply (unitsOf m e) := by
  have hunits := unitsOf_shiftLeft (m := m) (k := (e - target).toNat)
    (show -1074 ≤ e - (e - target).toNat by omega)
  rw [show e - (e - target).toNat = target by omega] at hunits
  rw [← hunits, unitsOf, Nat.cast_mul, apply_mul, Nat.cast_pow]
  rfl

theorem roundsTo_add {u v : UnpackedFloat} {c k : Nat} (hu : IsReal u)
    (hv : IsReal v) (hc : c ≤ 2 ^ 53) (hk : k ≤ 2044)
    (hrange : (amount u + amount v).natAbs ≤ c * 2 ^ k) :
    RoundsTo (amount u + amount v) (add .binary64 u v) := by
  cases hu with
  | zero s =>
      cases hv with
      | zero t =>
          rw [UnpackedFloat.add]
          split <;> exact IsReal.roundsTo (.zero _)
      | finite t hv =>
          rw [show amount (.zero s) = 0 from rfl, Int.zero_add]
          exact (IsReal.finite t hv).roundsTo
  | @finite s m₁ e₁ hu =>
      cases hv with
      | zero t =>
          rw [show amount (.zero t) = 0 from rfl, Int.add_zero]
          exact (IsReal.finite s hu).roundsTo
      | @finite t m₂ e₂ hv =>
          have hlow : -1074 ≤ min e₁ e₂ := le_min hu.le_place hv.le_place
          have ht : min e₁ e₂ + 1074 = (min e₁ e₂ + 1074).toNat := by omega
          rw [amount, amount,
            ← apply_decreaseExponent s hlow (min_le_left ..),
            ← apply_decreaseExponent t hlow (min_le_right ..),
            ← Int.add_mul] at hrange ⊢
          exact roundsTo_normalize ht hc hk hrange

theorem sub_eq_add_neg (u v : UnpackedFloat) :
    UnpackedFloat.sub .binary64 u v =
      UnpackedFloat.add .binary64 u v.neg := by
  cases u with
  | notANumber => rfl
  | zero s => cases v <;> rfl
  | infinity s => cases v <;> rfl
  | finite s m₁ e₁ hm₁ =>
      cases v with
      | notANumber | zero | infinity => rfl
      | finite t m₂ e₂ hm₂ =>
          rw [UnpackedFloat.sub, UnpackedFloat.neg, UnpackedFloat.add]
          dsimp only
          rw [Int.sub_eq_add_neg, apply_neg]

theorem IsReal.neg {u : UnpackedFloat} (h : IsReal u) : IsReal u.neg := by
  cases h with
  | zero s => exact .zero _
  | finite s h => exact .finite _ h

theorem amount_neg (u : UnpackedFloat) : amount u.neg = -amount u := by
  cases u with
  | notANumber | zero | infinity => rfl
  | finite s m e hm => exact apply_neg s _

theorem IsReal.abs {u : UnpackedFloat} (h : IsReal u) :
    IsReal u.abs ∧ (amount u.abs).natAbs = (amount u).natAbs := by
  cases h with
  | zero s => exact ⟨.zero _, rfl⟩
  | finite s h =>
      refine ⟨.finite _ h, ?_⟩
      rw [UnpackedFloat.abs, amount, amount, natAbs_apply, natAbs_apply]

/-! ## Floats -/

def units (x : Float) : Int := amount x.toModel.unpack

theorem isReal_iff {x : Float} :
    IsReal x.toModel.unpack ↔ x.isFinite = true := by
  refine ⟨fun h => ?_, isReal_unpack⟩
  change x.toModel.unpack.isFinite = true
  generalize x.toModel.unpack = u at h
  cases h <;> rfl

theorem unpack_neg {x : Float} (h : x.isFinite = true) :
    (-x).toModel.unpack = x.toModel.unpack.neg :=
  (isReal_unpack h).neg.unpack_pack

theorem isFinite_neg {x : Float} (h : x.isFinite = true) :
    (-x).isFinite = true :=
  isReal_iff.mp ((unpack_neg h).symm ▸ (isReal_unpack h).neg)

/-- At most `c` times `2 ^ k` units, in multiples of `2 ^ g`. -/
structure IsWithin (g k c : Nat) (x : Float) : Prop where
  isFinite : x.isFinite = true
  dvd : ((2 ^ g : Nat) : Int) ∣ units x
  le : (units x).natAbs ≤ c * 2 ^ k

section Within

variable {g k c d : Nat} {x y : Float}

section Packed

variable {n : Int} {u : UnpackedFloat} (h : RoundsTo n u)
  (hx : x.toModel = Float.Model.pack u)
include h hx

theorem RoundsTo.unpack_eq : x.toModel.unpack = u := by
  rw [hx, h.isReal.unpack_pack]

theorem RoundsTo.isWithin (hdvd : ((2 ^ g : Nat) : Int) ∣ n)
    (hc : c ≤ 2 ^ 53) (hle : n.natAbs ≤ c * 2 ^ k) : IsWithin g k c x := by
  have hunpack := h.unpack_eq hx
  refine ⟨isReal_iff.mp (hunpack ▸ h.isReal), ?_, ?_⟩
  · rw [units, hunpack, Int.natCast_dvd]
    exact h.isRounded.dvd (Int.natCast_dvd.mp hdvd)
  · rw [units, hunpack]
    exact h.isRounded.le hc hle

theorem RoundsTo.units_ne_zero (hn : n ≠ 0) : units x ≠ 0 := by
  rw [units, h.unpack_eq hx, ← Int.natAbs_pos]
  exact h.isRounded.pos (Int.natAbs_pos.mpr hn)

end Packed

theorem IsWithin.mono (h : IsWithin g k c x) (hle : c ≤ d) :
    IsWithin g k d x :=
  ⟨h.isFinite, h.dvd, h.le.trans (Nat.mul_le_mul_right _ hle)⟩

theorem isWithin_zero (c : Nat) : IsWithin g k c 0.0 :=
  ⟨rfl, Int.dvd_zero _, Nat.zero_le _⟩

theorem isWithin_negativeZero (c : Nat) : IsWithin g k c (-0.0) :=
  ⟨rfl, Int.dvd_zero _, Nat.zero_le _⟩

theorem IsWithin.add (hx : IsWithin g k c x) (hy : IsWithin g k d y)
    (hk : k ≤ 2044) (hcd : c + d ≤ 2 ^ 53) :
    IsWithin g k (c + d) (x + y) := by
  have hle : (units x + units y).natAbs ≤ (c + d) * 2 ^ k := by
    rw [Nat.add_mul]
    exact (Int.natAbs_add_le ..).trans (Nat.add_le_add hx.le hy.le)
  have hrounds := roundsTo_add (isReal_unpack hx.isFinite)
    (isReal_unpack hy.isFinite) hcd hk hle
  exact hrounds.isWithin rfl (Int.dvd_add hx.dvd hy.dvd) hcd hle

theorem IsWithin.sub (hx : IsWithin g k c x) (hy : IsWithin g k d y)
    (hk : k ≤ 2044) (hcd : c + d ≤ 2 ^ 53) :
    IsWithin g k (c + d) (x - y) := by
  have hle : (units x + -units y).natAbs ≤ (c + d) * 2 ^ k := by
    rw [Nat.add_mul]
    refine (Int.natAbs_add_le ..).trans (Nat.add_le_add hx.le ?_)
    rw [Int.natAbs_neg]
    exact hy.le
  rw [units, units, ← amount_neg] at hle
  have hrounds := roundsTo_add (isReal_unpack hx.isFinite)
    (isReal_unpack hy.isFinite).neg hcd hk hle
  refine hrounds.isWithin ?_ ?_ hcd hle
  · exact congrArg Float.Model.pack (sub_eq_add_neg _ _)
  · rw [amount_neg]
    exact Int.dvd_add hx.dvd (Int.dvd_neg.mpr hy.dvd)

theorem IsWithin.foldl_add {xs : List Float} (hx : IsWithin g k c x)
    (hxs : ∀ y ∈ xs, IsWithin g k 1 y) (hk : k ≤ 2044)
    (hc : c + xs.length ≤ 2 ^ 53) :
    IsWithin g k (c + xs.length) (xs.foldl (· + ·) x) := by
  induction xs generalizing x c with
  | nil => exact hx
  | cons y ys ih =>
      obtain ⟨hy, hys⟩ := List.forall_mem_cons.mp hxs
      rw [List.length_cons, Nat.add_comm ys.length, ← Nat.add_assoc] at hc ⊢
      exact ih (hx.add hy hk (Nat.le_of_add_right_le hc)) hys hc

theorem units_abs (h : x.isFinite = true) :
    x.abs.isFinite = true ∧ (units x.abs).natAbs = (units x).natAbs := by
  obtain ⟨hreal, hamount⟩ := (isReal_unpack h).abs
  have hunpack : x.abs.toModel.unpack = x.toModel.unpack.abs :=
    hreal.unpack_pack
  refine ⟨isReal_iff.mp (hunpack ▸ hreal), ?_⟩
  rw [units, hunpack, hamount, units]

theorem IsWithin.abs (h : IsWithin g k c x) : IsWithin g k c x.abs := by
  obtain ⟨hfinite, hunits⟩ := units_abs h.isFinite
  refine ⟨hfinite, ?_, hunits.trans_le h.le⟩
  rw [Int.natCast_dvd, hunits, ← Int.natCast_dvd]
  exact h.dvd

theorem beq_zero_of_units (h : x.isFinite = true) (hunits : units x = 0) :
    (x == 0.0) = true := by
  change UnpackedFloat.beq x.toModel.unpack (.zero .positive) = true
  rw [units] at hunits
  have hreal := isReal_unpack h
  generalize x.toModel.unpack = u at hreal hunits
  cases hreal with
  | zero s => rfl
  | @finite s m e h =>
      rw [← Int.natAbs_eq_zero, amount, natAbs_apply] at hunits
      exact absurd hunits (unitsOf_pos h.pos e).ne'

end Within

theorem beq_zero_abs (x : Float) : (x.abs == 0.0) = (x == 0.0) := by
  change (Float.Model.pack x.toModel.unpack.abs).unpack.beq
    (.zero .positive) = x.toModel.unpack.beq (.zero .positive)
  cases hfinite : x.isFinite with
  | true =>
      have hreal := isReal_unpack hfinite
      rw [hreal.abs.1.unpack_pack]
      generalize x.toModel.unpack = u at hreal
      cases hreal with
      | zero s => rfl
      | finite s h => cases s <;> rfl
  | false =>
      change x.toModel.unpack.isFinite = false at hfinite
      generalize x.toModel.unpack = u at hfinite
      cases u with
      | notANumber => decide +kernel
      | infinity s => cases s <;> decide +kernel
      | zero s => contradiction
      | finite s m e h => contradiction

/-! ## Quotients -/

private theorem log2_div_add_le {a b : Nat} (hb : 0 < b) (h : a / b ≠ 0) :
    (a / b).log2 + b.log2 ≤ a.log2 := by
  have hmul : a / b * b ≤ a := Nat.div_mul_le_self a b
  have ha : a ≠ 0 := fun hzero => h (by rw [hzero, Nat.zero_div])
  rw [Nat.le_log2 ha, Nat.pow_add]
  exact (Nat.mul_le_mul (Nat.log2_self_le h) (Nat.log2_self_le hb.ne')).trans
    hmul

private theorem isFinite_pack_roundWithAccuracy {s : Sign} {m : Nat} {e : Int}
    {accuracy : Accuracy} (he : e ≤ 970) (hplace : lastPlace m e ≤ 970) :
    (Float.Model.pack (roundWithAccuracy .binary64 s m e
      accuracy)).isFinite = true := by
  have hlast : e + dropped m e ≤ 970 := by
    rw [dropped]
    omega
  rw [roundWithAccuracy_eq]
  split
  · exact congrArg UnpackedFloat.isFinite unpack_packedZero
  · split <;> exact isFinite_pack (by omega)

theorem isFinite_div {x y : Float} (hx : x.isFinite = true)
    (hy : y.isFinite = true) (hne : units y ≠ 0)
    (hlog : (units x).natAbs.log2 ≤ (units y).natAbs.log2 + 1022) :
    (x / y).isFinite = true := by
  change (Float.Model.pack (UnpackedFloat.div .binary64 x.toModel.unpack
    y.toModel.unpack)).isFinite = true
  rw [units] at hlog hne
  rw [units] at hlog
  have hx := isReal_unpack hx
  have hy := isReal_unpack hy
  generalize x.toModel.unpack = u at hx hlog
  generalize y.toModel.unpack = v at hy hlog hne
  cases hy with
  | zero t => exact absurd rfl hne
  | @finite t m₂ e₂ hv =>
      cases hx with
      | zero s => exact congrArg UnpackedFloat.isFinite unpack_packedZero
      | @finite s m₁ e₁ hu =>
          rw [amount, amount, natAbs_apply, natAbs_apply] at hlog
          have hlogu := log2_unitsOf hu.pos hu.le_place
          have hlogv := log2_unitsOf hv.pos hv.le_place
          have htarget : Format.binary64.targetExponent
              (totalExponent m₁ e₁ - totalExponent m₂ e₂) ≤ 969 := by
            rw [Format.targetExponent, totalExponent, totalExponent]
            change max ((m₁.log2 : Int) + 1 + e₁ - (m₂.log2 + 1 + e₂) - 53)
              (3 - 2 ^ 10 - 53) ≤ _
            omega
          rw [UnpackedFloat.div, divCore]
          dsimp only
          generalize Format.binary64.targetExponent
            (totalExponent m₁ e₁ - totalExponent m₂ e₂) = target at htarget
          refine isFinite_pack_roundWithAccuracy (by omega) ?_
          generalize hshift : (e₁ - e₂ - min (e₁ - e₂) target).toNat = k
          rw [lastPlace]
          by_cases hzero : m₁ <<< k / m₂ = 0
          · rw [hzero, Nat.log2_zero]
            omega
          · have hdigits := log2_div_add_le hv.pos hzero
            rw [log2_shiftLeft hu.pos] at hdigits
            omega

theorem IsWithin.isFinite_div {g k c g' k' c' : Nat} {x y : Float}
    (hx : IsWithin g k c x) (hy : IsWithin g' k' c' y) (hc : c ≤ 2 ^ 53)
    (hgap : k + 53 ≤ g' + 1022) (hne : units y ≠ 0) :
    (x / y).isFinite = true := by
  refine Number.isFinite_div hx.isFinite hy.isFinite hne ?_
  have hlow : g' ≤ (units y).natAbs.log2 := by
    have hpos := Int.natAbs_pos.mpr hne
    rw [Nat.le_log2 hpos.ne']
    exact Nat.le_of_dvd hpos (Int.natCast_dvd.mp hy.dvd)
  have hhigh : (units x).natAbs.log2 ≤ k + 53 := by
    rcases Nat.eq_zero_or_pos (units x).natAbs with hzero | hpos
    · rw [hzero, Nat.log2_zero]
      exact Nat.zero_le _
    · rw [← Nat.lt_succ_iff, Nat.log2_lt hpos.ne']
      calc (units x).natAbs ≤ c * 2 ^ k := hx.le
        _ ≤ 2 ^ 53 * 2 ^ k := Nat.mul_le_mul_right _ hc
        _ = 2 ^ (k + 53) := by rw [Nat.mul_comm, ← Nat.pow_add]
        _ < 2 ^ (k + 53 + 1) := Nat.pow_lt_pow_succ (by decide)
  omega

/-! ## Counts -/

private theorem roundsTo_mul_one {u : UnpackedFloat} {g c k : Nat}
    (hu : IsReal u) (hg : 104 ≤ g) (hdvd : ((2 ^ g : Nat) : Int) ∣ amount u)
    (hc : c ≤ 2 ^ 53) (hk : k ≤ 2044) (hle : (amount u).natAbs ≤ c * 2 ^ k) :
    RoundsTo (amount u) (UnpackedFloat.mul .binary64 u
      (.finite .positive (2 ^ 52) (-52) (by decide))) := by
  cases hu with
  | zero s => exact ⟨.zero _, .refl _⟩
  | @finite s m e h =>
      rw [Int.natCast_dvd, amount, natAbs_apply] at hdvd
      rw [amount, natAbs_apply] at hle
      have hshift : m * 2 ^ 52 = m <<< 52 := (Nat.shiftLeft_eq ..).symm
      have hlow : -1022 ≤ e := by
        have hlog := log2_unitsOf h.pos h.le_place
        have hdigits := (Nat.log2_lt h.pos.ne').mpr h.lt
        have hreach : g ≤ (unitsOf m e).log2 := by
          rw [Nat.le_log2 (unitsOf_pos h.pos e).ne']
          exact Nat.le_of_dvd (unitsOf_pos h.pos e) hdvd
        omega
      have hunits : unitsOf (m * 2 ^ 52) (e + -52) = unitsOf m e := by
        rw [hshift]
        exact unitsOf_shiftLeft (by omega)
      have hplace : lastPlace (m * 2 ^ 52) (e + -52) = lastPlace m e := by
        rw [hshift]
        exact lastPlace_shiftLeft h.pos
      obtain ⟨m', e', h', heq, hrounded⟩ := @exists_roundWithAccuracy
        (s * .positive) (m * 2 ^ 52) c k (e + -52)
        (Nat.mul_pos h.pos (by decide)) (by omega) hc hk (hunits ▸ hle)
        (by rw [hplace, lastPlace]; omega)
      rw [UnpackedFloat.mul, heq]
      refine ⟨.finite _ h', ?_⟩
      rw [amount, amount, natAbs_apply, natAbs_apply, ← hunits]
      exact hrounded

theorem isWithin_ofNat {n : Nat} (h : n < 2 ^ 53) :
    IsWithin onePlace onePlace n (Float.ofNat n) ∧
      (0 < n → units (Float.ofNat n) ≠ 0) := by
  have hproduct : Float.ofNat n = n.toUInt64.toFloat * 1.0 := by
    change Float.ofScientific n false 0 = _
    rw [Float.ofScientific, dif_pos ⟨h, by decide⟩]
    rfl
  have hcast : (n : Int) * 2 ^ onePlace = (n * 2 ^ onePlace : Nat) := by
    rw [Nat.cast_mul, Nat.cast_pow]
    rfl
  have hword : n.toUInt64.toNat = n := Nat.mod_eq_of_lt (h.trans (by decide))
  have hwhole : RoundsTo ((n : Int) * 2 ^ onePlace)
      (UnpackedFloat.normalize .binary64 n 0 .positive) := by
    refine roundsTo_normalize (show (0 : Int) + 1074 = onePlace from rfl) h.le
      (show onePlace ≤ 2044 by decide) ?_
    rw [hcast, Int.natAbs_natCast]
  rw [hcast] at hwhole
  have hdvd : ((2 ^ onePlace : Nat) : Int) ∣ (n * 2 ^ onePlace : Nat) :=
    Int.natCast_dvd_natCast.mpr (Nat.dvd_mul_left ..)
  have hpack : n.toUInt64.toFloat.toModel = Float.Model.pack
      (UnpackedFloat.normalize .binary64 n 0 .positive) := by
    change Float.Model.pack (UnpackedFloat.normalize .binary64
      n.toUInt64.toNat 0 .positive) = _
    rw [hword]
  have hwithin : IsWithin onePlace onePlace n n.toUInt64.toFloat :=
    hwhole.isWithin hpack hdvd h.le (Int.natAbs_natCast _).le
  have hmul := roundsTo_mul_one (isReal_unpack hwithin.isFinite) (by decide)
    hwithin.dvd h.le (by decide) hwithin.le
  rw [hproduct]
  refine ⟨hmul.isWithin rfl hwithin.dvd h.le hwithin.le, fun hpos => ?_⟩
  refine hmul.units_ne_zero rfl (hwhole.units_ne_zero hpack ?_)
  exact Int.natCast_ne_zero.mpr (Nat.mul_pos hpos (Nat.two_pow_pos _)).ne'

/-! ## Numbers of moderate size -/

/-- Zero, or a magnitude from `2 ^ -450` up to `2 ^ 450`. -/
def IsModerate (x : Float) : Prop :=
  magnitude x = 0 ∨
    (2 : ℚ) ^ (-450 : ℤ) ≤ (Binary.ofMagnitude (magnitude x)).value ∧
      (Binary.ofMagnitude (magnitude x)).value < 2 ^ (450 : ℤ)

theorem isModerate_of_exponent {x : Float} (h : binade ≤ magnitude x)
    (hlow : -502 ≤ (Binary.ofMagnitude (magnitude x)).exponent)
    (hhigh : (Binary.ofMagnitude (magnitude x)).exponent ≤ 397) :
    IsModerate x := by
  obtain ⟨hvalue, hvalue'⟩ := value_bounds h
  refine .inr ⟨le_trans ?_ hvalue, lt_of_lt_of_le hvalue' ?_⟩
  · exact zpow_le_zpow_right₀ (by norm_num) (by omega)
  · exact zpow_le_zpow_right₀ (by norm_num) (by omega)

def lowestPlace : Nat := 572

def highestPlace : Nat := 1524

theorem IsModerate.isWithin {x : Float} (h : IsModerate x) :
    IsWithin lowestPlace highestPlace 1 x := by
  rcases h with hzero | ⟨hlow, hhigh⟩
  · have hunits : units x = 0 := congrArg amount (unpack_of_zero hzero)
    refine ⟨isFinite_iff.mpr (by rw [hzero]; decide), ?_, ?_⟩
    · exact hunits ▸ Int.dvd_zero _
    · exact hunits ▸ Nat.zero_le _
  · have hbinade : binade ≤ magnitude x := by
      refine Nat.not_lt.mp fun hsmall => ?_
      have hlt := hlow.trans_lt (value_lt hsmall)
      rw [zpow_lt_zpow_iff_right₀ (by norm_num)] at hlt
      exact absurd hlt (by decide)
    obtain ⟨hvalue, hvalue'⟩ := value_bounds hbinade
    have hbelow := hvalue.trans_lt hhigh
    have habove := hlow.trans_lt hvalue'
    rw [zpow_lt_zpow_iff_right₀ (by norm_num),
      ofMagnitude_of_le hbinade] at hbelow habove
    dsimp only at hbelow habove
    have hpos : 0 < magnitude x := lt_of_lt_of_le (by decide) hbinade
    have hlt : magnitude x < infinite := by
      simp only [infinite, binade] at hbelow ⊢
      omega
    have hunits : (units x).natAbs = unitsOf (binade + magnitude x % binade)
        ((magnitude x / binade : Nat) - 1075) := by
      rw [units, unpack_of_finite hpos hlt, amount, natAbs_apply,
        ofMagnitude_of_le hbinade]
    refine ⟨isFinite_iff.mpr hlt, ?_, ?_⟩
    · rw [Int.natCast_dvd, hunits, unitsOf]
      refine Dvd.dvd.mul_left (Nat.pow_dvd_pow 2 ?_) _
      rw [lowestPlace]
      omega
    · have hdigits : binade + magnitude x % binade ≤ 2 ^ 53 := by
        rw [binade]
        omega
      rw [hunits, unitsOf, Nat.one_mul]
      refine (Nat.mul_le_mul_right _ hdigits).trans ?_
      rw [← Nat.pow_add]
      refine Nat.pow_le_pow_right (by decide) ?_
      rw [highestPlace]
      omega

end Chartbook.Number
