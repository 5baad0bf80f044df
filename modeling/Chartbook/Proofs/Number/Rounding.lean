import Chartbook.Proofs.Number.Finite

/-!
# Rounding

Natural numbers count in units of the least positive float.  The operations on
floats round such a number to 53 binary digits: the rounded number is a multiple
of every power of two that the number is a multiple of, and it stays below every
bound that has no more than 53 digits itself.
-/

namespace Chartbook.Number

open Float.Model Float.Model.UnpackedFloat

structure IsRounded (n r : Nat) : Prop where
  dvd {g : Nat} (h : 2 ^ g ∣ n) : 2 ^ g ∣ r
  le {c k : Nat} (hc : c ≤ 2 ^ 53) (h : n ≤ c * 2 ^ k) : r ≤ c * 2 ^ k
  pos (h : 0 < n) : 0 < r

theorem isRounded_of_digits {n t q : Nat} (ht : t = 0 ∨ 2 ^ 52 ≤ n / 2 ^ t)
    (hlow : n / 2 ^ t ≤ q) (hhigh : q ≤ n / 2 ^ t + 1)
    (hexact : 2 ^ t ∣ n → q = n / 2 ^ t) : IsRounded n (q * 2 ^ t) where
  dvd {g} h := by
    rcases Nat.le_total t g with hle | hle
    · have hdvd : 2 ^ t ∣ n := (Nat.pow_dvd_pow 2 hle).trans h
      rwa [hexact hdvd, Nat.div_mul_cancel hdvd]
    · exact (Nat.pow_dvd_pow 2 hle).trans (Nat.dvd_mul_left ..)
  le {c k} hc h := by
    have hfloor := Nat.div_mul_le_self n (2 ^ t)
    have hreached : c * 2 ^ k ≤ n / 2 ^ t * 2 ^ t → q * 2 ^ t ≤ c * 2 ^ k := by
      intro hle
      have heq : n = n / 2 ^ t * 2 ^ t := by omega
      rw [hexact (Dvd.intro_left _ heq.symm), ← heq]
      exact h
    rcases Nat.lt_or_ge k t with hlt | hge
    · refine hreached ?_
      rcases ht with ht | ht
      · omega
      · calc c * 2 ^ k ≤ 2 ^ 53 * 2 ^ k := Nat.mul_le_mul_right _ hc
          _ = 2 ^ 52 * 2 ^ (k + 1) := by ring
          _ ≤ n / 2 ^ t * 2 ^ t :=
            Nat.mul_le_mul ht (Nat.pow_le_pow_right (by decide) hlt)
    · obtain ⟨d, rfl⟩ := Nat.exists_eq_add_of_le hge
      have hsplit : c * 2 ^ (t + d) = c * 2 ^ d * 2 ^ t := by ring
      rw [hsplit] at hreached ⊢
      rcases Nat.lt_or_ge (n / 2 ^ t) (c * 2 ^ d) with hlt | hge
      · exact Nat.mul_le_mul_right _ (by omega)
      · exact hreached (Nat.mul_le_mul_right _ hge)
  pos h := by
    refine Nat.mul_pos (lt_of_lt_of_le ?_ hlow) (Nat.pow_pos (by decide))
    rcases ht with rfl | ht
    · rwa [Nat.pow_zero, Nat.div_one]
    · exact lt_of_lt_of_le (by decide) ht

/-! ## Shifts -/

theorem mantissa_shiftRight (em : ExtendedMantissa) (k : Nat) :
    (em >>> k).mantissa = em.mantissa / 2 ^ k := by
  induction k with
  | zero => exact (Nat.div_one _).symm
  | succ k ih =>
      change (em >>> k).mantissa / 2 = _
      rw [ih, Nat.div_div_eq_div_mul, Nat.pow_succ]

theorem shiftRight_of_dvd {m k : Nat} (h : 2 ^ k ∣ m) :
    ExtendedMantissa.ofMantissaAndAccuracy m .exact >>> k =
      ⟨m / 2 ^ k, false, false⟩ := by
  induction k with
  | zero =>
      rw [Nat.pow_zero, Nat.div_one]
      rfl
  | succ k ih =>
      have hk : 2 ^ k ∣ m := (Nat.pow_dvd_pow 2 (Nat.le_succ k)).trans h
      have heven : m / 2 ^ k % 2 = 0 := by
        rw [← Nat.dvd_iff_mod_eq_zero]
        exact (Nat.dvd_div_iff_mul_dvd hk).mpr h
      change ExtendedMantissa.shiftRightOne
        (ExtendedMantissa.ofMantissaAndAccuracy m .exact >>> k) = _
      rw [ih hk, ExtendedMantissa.shiftRightOne, heven,
        Nat.div_div_eq_div_mul, Nat.pow_succ]
      rfl

theorem roundedMantissa_bounds (em : ExtendedMantissa) :
    em.mantissa ≤ em.roundedMantissa ∧
      em.roundedMantissa ≤ em.mantissa + 1 := by
  have hparity := Nat.mod_lt em.mantissa (show 0 < 2 by decide)
  rw [ExtendedMantissa.roundedMantissa]
  cases em.accuracy with
  | exact => exact ⟨le_rfl, Nat.le_succ _⟩
  | inexact position =>
      cases position <;> simp only [Accuracy.roundToNearestEven] <;> omega

/-! ## Rounding to a format -/

/-- The exponent at which a number with this mantissa and exponent ends. -/
def lastPlace (m : Nat) (e : Int) : Int := max (m.log2 + e - 52) (-1074)

theorem targetExponent_eq (m : Nat) (e : Int) :
    Format.binary64.targetExponent (totalExponent m e) = lastPlace m e := by
  rw [Format.targetExponent, totalExponent, lastPlace]
  change max ((m.log2 : Int) + 1 + e - 53) (3 - 2 ^ 10 - 53) = _
  omega

def dropped (m : Nat) (e : Int) : Nat := (lastPlace m e - e).toNat

def rounded (m : Nat) (e : Int) (accuracy : Accuracy) : Nat :=
  (ExtendedMantissa.ofMantissaAndAccuracy m accuracy >>>
    dropped m e).roundedMantissa

section Rounded

variable (m : Nat) (e : Int) (accuracy : Accuracy)

theorem rounded_bounds :
    m / 2 ^ dropped m e ≤ rounded m e accuracy ∧
      rounded m e accuracy ≤ m / 2 ^ dropped m e + 1 := by
  have hmantissa : (ExtendedMantissa.ofMantissaAndAccuracy m
      accuracy).mantissa = m := by
    rcases accuracy with _ | _ | _ | _ <;> rfl
  have hbounds := roundedMantissa_bounds
    (ExtendedMantissa.ofMantissaAndAccuracy m accuracy >>> dropped m e)
  rwa [mantissa_shiftRight, hmantissa] at hbounds

theorem rounded_of_dvd (h : 2 ^ dropped m e ∣ m) :
    rounded m e .exact = m / 2 ^ dropped m e := by
  rw [rounded, shiftRight_of_dvd h]
  rfl

theorem log2_le_dropped : m.log2 ≤ 52 + dropped m e := by
  rw [dropped, lastPlace]
  omega

theorem neg_le_add_dropped : -1074 ≤ e + dropped m e := by
  rw [dropped, lastPlace]
  omega

theorem rounded_le : rounded m e accuracy ≤ 2 ^ 53 := by
  have hquotient : m / 2 ^ dropped m e < 2 ^ 53 := by
    rw [Nat.div_lt_iff_lt_mul (Nat.pow_pos (by decide)), ← Nat.pow_add]
    refine lt_of_lt_of_le Nat.lt_log2_self ?_
    have hlog := log2_le_dropped m e
    exact Nat.pow_le_pow_right (by decide) (by omega)
  have hbounds := rounded_bounds m e accuracy
  omega

private theorem shiftToTargetExponent_rounded {r : Nat} {place : Int}
    (hplace : -1074 ≤ place) (hr : r ≤ 2 ^ 53) :
    shiftToTargetExponent .binary64 r place .exact =
      if r < 2 ^ 53 then (⟨r, false, false⟩, place)
      else (⟨2 ^ 52, false, false⟩, place + 1) := by
  have hshift {k : Nat} (hk : dropped r place = k) (hdvd : 2 ^ k ∣ r) :
      shiftToTargetExponent .binary64 r place .exact =
        (⟨r / 2 ^ k, false, false⟩, place + k) := by
    rw [shiftToTargetExponent, targetExponent_eq, ← shiftRight_of_dvd hdvd,
      ← hk]
    rfl
  split
  · rename_i hlt
    have hlog : r.log2 < 53 := by
      rcases Nat.eq_zero_or_pos r with rfl | hpos
      · decide
      · exact (Nat.log2_lt hpos.ne').mpr hlt
    have hnone : dropped r place = 0 := by
      rw [dropped, lastPlace]
      omega
    rw [hshift hnone (Nat.one_dvd r), Nat.pow_zero, Nat.div_one]
    exact congrArg (Prod.mk _) (Int.add_zero place)
  · rename_i hge
    obtain rfl : r = 2 ^ 53 := by omega
    have hone : dropped (2 ^ 53) place = 1 := by
      rw [dropped, lastPlace, Nat.log2_two_pow]
      omega
    rw [hshift hone (by decide)]
    rfl

theorem roundWithAccuracy_eq (s : Sign) :
    roundWithAccuracy .binary64 s m e accuracy =
      if h : rounded m e accuracy = 0 then .zero s
      else if rounded m e accuracy < 2 ^ 53 then
        .finite s (rounded m e accuracy) (e + dropped m e)
          (Nat.pos_of_ne_zero h)
      else .finite s (2 ^ 52) (e + dropped m e + 1) (by decide) := by
  have hfirst : shiftToTargetExponent .binary64 m e accuracy =
      (ExtendedMantissa.ofMantissaAndAccuracy m accuracy >>> dropped m e,
        e + dropped m e) := by
    rw [shiftToTargetExponent, targetExponent_eq]
    rfl
  have hfold : (ExtendedMantissa.ofMantissaAndAccuracy m accuracy >>>
      dropped m e).roundedMantissa = rounded m e accuracy := rfl
  simp only [roundWithAccuracy, hfirst, hfold, shiftToTargetExponent_rounded
    (neg_le_add_dropped m e) (rounded_le m e accuracy)]
  by_cases hlt : rounded m e accuracy < 2 ^ 53
  · simp only [hlt, if_true]
  · have hne : rounded m e accuracy ≠ 0 := by omega
    simp only [hlt, if_false, hne, dif_neg, not_false_eq_true]
    exact dif_neg (by decide)

end Rounded

end Chartbook.Number
