import Chartbook.Number.Shortest
import Chartbook.Proofs.Number.Bits
import Mathlib.Algebra.Order.Field.Power
import Mathlib.Data.Rat.Cast.Order
import Mathlib.Tactic.FieldSimp
import Mathlib.Tactic.Positivity

/-!
# Decimals that read back

A quotient that is exactly the value of a magnitude is rounded to that
magnitude.  The shortest decimal is one that was seen to read back, or else the
exact value, so it always reads back.
-/

namespace Chartbook.Number

/-! ## Logarithms of quotients -/

theorem two_zpow_eq (l : ℤ) : (2 : ℚ) ^ l = 2 ^ l.toNat / 2 ^ (-l).toNat := by
  rw [← zpow_natCast, ← zpow_natCast, ← zpow_sub₀ (by norm_num)]
  congr 1
  omega

private theorem log2_bounds {n : Nat} (h : 0 < n) :
    (2 : ℚ) ^ (n.log2 : ℤ) ≤ n ∧ (n : ℚ) < 2 ^ ((n.log2 : ℤ) + 1) := by
  have hlow : 2 ^ n.log2 ≤ n := Nat.log2_self_le (Nat.ne_of_gt h)
  have hhigh : n < 2 ^ (n.log2 + 1) := Nat.lt_log2_self
  constructor
  · exact_mod_cast hlow
  · exact_mod_cast hhigh

section Quotient

variable {num den : Nat} {l : ℤ}

theorem mul_two_pow_le_iff (hden : 0 < den) :
    den * 2 ^ l.toNat ≤ num * 2 ^ (-l).toNat ↔ (2 : ℚ) ^ l ≤ num / den := by
  have hpos : (0 : ℚ) < den := by exact_mod_cast hden
  rw [two_zpow_eq, div_le_div_iff₀ (by positivity) hpos, mul_comm]
  exact_mod_cast Iff.rfl

theorem quotientLog2_bounds (hnum : 0 < num) (hden : 0 < den) :
    (2 : ℚ) ^ quotientLog2 num den ≤ num / den ∧
      (num : ℚ) / den < 2 ^ (quotientLog2 num den + 1) := by
  obtain ⟨hnumlow, hnumhigh⟩ := log2_bounds hnum
  obtain ⟨hdenlow, hdenhigh⟩ := log2_bounds hden
  have hpos : (0 : ℚ) < den := by exact_mod_cast hden
  have hhigh : (num : ℚ) / den < 2 ^ ((num.log2 : ℤ) - den.log2 + 1) := by
    rw [div_lt_iff₀ hpos]
    calc (num : ℚ) < 2 ^ ((num.log2 : ℤ) + 1) := hnumhigh
      _ = 2 ^ ((num.log2 : ℤ) - den.log2 + 1) * 2 ^ (den.log2 : ℤ) := by
        rw [← zpow_add₀ (by norm_num)]
        congr 1
        omega
      _ ≤ 2 ^ ((num.log2 : ℤ) - den.log2 + 1) * den := by gcongr
  have hlow : (2 : ℚ) ^ ((num.log2 : ℤ) - den.log2 - 1) ≤ num / den := by
    rw [le_div_iff₀ hpos]
    calc (2 : ℚ) ^ ((num.log2 : ℤ) - den.log2 - 1) * den
        ≤ 2 ^ ((num.log2 : ℤ) - den.log2 - 1) *
            2 ^ ((den.log2 : ℤ) + 1) := by gcongr
      _ = 2 ^ (num.log2 : ℤ) := by
        rw [← zpow_add₀ (by norm_num)]
        congr 1
        omega
      _ ≤ num := hnumlow
  rw [quotientLog2]
  simp only [Nat.pow_eq, mul_two_pow_le_iff hden]
  split
  · rename_i hle
    exact ⟨hle, hhigh⟩
  · rename_i hlt
    refine ⟨hlow, ?_⟩
    rw [Int.sub_add_cancel]
    exact not_le.mp hlt

theorem quotientLog2_lt (hnum : 0 < num) (hden : 0 < den)
    (h : (num : ℚ) / den < 2 ^ l) : quotientLog2 num den < l := by
  obtain ⟨hlow, -⟩ := quotientLog2_bounds hnum hden
  exact (zpow_lt_zpow_iff_right₀ (by norm_num)).mp (hlow.trans_lt h)

theorem quotientLog2_eq (hnum : 0 < num) (hden : 0 < den)
    (hlow : (2 : ℚ) ^ l ≤ num / den) (hhigh : (num : ℚ) / den < 2 ^ (l + 1)) :
    quotientLog2 num den = l := by
  obtain ⟨-, hhigh'⟩ := quotientLog2_bounds hnum hden
  have hle := quotientLog2_lt hnum hden hhigh
  have hge := (zpow_lt_zpow_iff_right₀ (by norm_num)).mp (hlow.trans_lt hhigh')
  omega

end Quotient

/-! ## Factors common to both parts of a quotient -/

theorem roundEven_mul_right (num den : Nat) {c : Nat} (hc : 0 < c) :
    roundEven (num * c) (den * c) = roundEven num den := by
  have hlow : 2 * (num % den * c) < den * c ↔ 2 * (num % den) < den := by
    rw [← Nat.mul_assoc]
    exact Nat.mul_lt_mul_right hc
  have hhigh : den * c < 2 * (num % den * c) ↔ den < 2 * (num % den) := by
    rw [← Nat.mul_assoc]
    exact Nat.mul_lt_mul_right hc
  rw [roundEven, roundEven, Nat.mul_mod_mul_right, Nat.mul_div_mul_right _ _ hc]
  simp only [hlow, hhigh]

theorem roundEven_mul_self (n : Nat) {den : Nat} (hden : 0 < den) :
    roundEven (n * den) den = n := by
  rw [roundEven, Nat.mul_mod_left, Nat.mul_div_cancel _ hden,
    if_pos (by omega)]

private theorem quotientLog2_mul_right {num den c : Nat} (hnum : 0 < num)
    (hden : 0 < den) (hc : 0 < c) :
    quotientLog2 (num * c) (den * c) = quotientLog2 num den := by
  have hquotient : ((num * c : Nat) : ℚ) / (den * c : Nat) = num / den := by
    have hcancel : (c : ℚ) ≠ 0 := by exact_mod_cast hc.ne'
    push_cast
    exact mul_div_mul_right _ _ hcancel
  obtain ⟨hlow, hhigh⟩ := quotientLog2_bounds hnum hden
  rw [← hquotient] at hlow hhigh
  exact quotientLog2_eq (Nat.mul_pos hnum hc) (Nat.mul_pos hden hc) hlow hhigh

theorem nearest_mul_right {num den c : Nat} (hnum : 0 < num) (hden : 0 < den)
    (hc : 0 < c) : nearest (num * c) (den * c) = nearest num den := by
  rw [nearest, nearest, quotientLog2_mul_right hnum hden hc]
  simp only [Nat.mul_right_comm _ c, roundEven_mul_right _ _ hc]

theorem nearest_congr {num den num' den' : Nat} (hnum : 0 < num)
    (hden : 0 < den) (hden' : 0 < den') (h : (num : ℚ) / den = num' / den') :
    nearest num den = nearest num' den' := by
  have hpos : (den : ℚ) ≠ 0 := by exact_mod_cast hden.ne'
  have hpos' : (den' : ℚ) ≠ 0 := by exact_mod_cast hden'.ne'
  have hcross : num * den' = num' * den := by
    exact_mod_cast (div_eq_div_iff hpos hpos').mp h
  have hnum' : 0 < num' := by
    refine Nat.pos_of_mul_pos_right (?_ : 0 < num' * den)
    rw [← hcross]
    exact Nat.mul_pos hnum hden'
  rw [← nearest_mul_right hnum hden hden',
    ← nearest_mul_right hnum' hden' hden, hcross, Nat.mul_comm den]

/-! ## Quotients that are the value of a magnitude -/

/-- One is `2 ^ onePlace` times the least positive float. -/
def onePlace : Nat := 1074

def Binary.value (x : Binary) : ℚ := x.significand * 2 ^ x.exponent

theorem Binary.value_eq (x : Binary) :
    x.value = x.numerator / x.denominator := by
  rw [value, two_zpow_eq, numerator, denominator, Nat.pow_eq, Nat.pow_eq,
    ← mul_div_assoc]
  push_cast
  rfl

theorem numerator_pos {b : Nat} (h : 0 < b) :
    0 < (Binary.ofMagnitude b).numerator :=
  Nat.mul_pos (significand_pos h) (Nat.pow_pos (by decide))

theorem Binary.denominator_pos (x : Binary) : 0 < x.denominator :=
  Nat.pow_pos (by decide)

theorem div_eq_value_iff (x : Binary) {num den : Nat} (hden : 0 < den) :
    (num : ℚ) / den = x.value ↔
      num * 2 ^ (-x.exponent).toNat =
        x.significand * (den * 2 ^ x.exponent.toNat) := by
  have hpos : (0 : ℚ) < den := by exact_mod_cast hden
  rw [Binary.value, two_zpow_eq, ← mul_div_assoc,
    div_eq_div_iff (ne_of_gt hpos) (by positivity), mul_right_comm, mul_assoc]
  exact_mod_cast Iff.rfl

theorem value_bounds {b : Nat} (h : binade ≤ b) :
    (2 : ℚ) ^ (52 + (Binary.ofMagnitude b).exponent) ≤
        (Binary.ofMagnitude b).value ∧
      (Binary.ofMagnitude b).value <
        2 ^ (53 + (Binary.ofMagnitude b).exponent) := by
  have hdigits : b % binade < binade := Nat.mod_lt _ (by decide)
  have hlow : (2 : ℚ) ^ (52 : ℤ) ≤ (binade + b % binade : Nat) := by
    exact_mod_cast Nat.le_add_right binade _
  have hhigh : ((binade + b % binade : Nat) : ℚ) < 2 ^ (53 : ℤ) := by
    have hlt : binade + b % binade < 2 ^ 53 := by
      rw [binade] at hdigits ⊢
      omega
    exact_mod_cast hlt
  rw [ofMagnitude_of_le h, Binary.value, zpow_add₀ (by norm_num),
    zpow_add₀ (by norm_num)]
  dsimp only
  constructor
  · gcongr
  · gcongr

theorem value_lt {b : Nat} (h : b < binade) :
    (Binary.ofMagnitude b).value < 2 ^ (-1022 : ℤ) := by
  have hlt : (b : ℚ) < 2 ^ (52 : ℤ) := by exact_mod_cast h
  rw [ofMagnitude_of_lt h, Binary.value]
  calc (b : ℚ) * 2 ^ (-1074 : ℤ) < 2 ^ (52 : ℤ) * 2 ^ (-1074 : ℤ) := by gcongr
    _ = 2 ^ (-1022 : ℤ) := by
      rw [← zpow_add₀ (by norm_num)]
      norm_num

section Value

variable {b num den : Nat} (hnum : 0 < num) (hden : 0 < den)
  (hvalue : (num : ℚ) / den = (Binary.ofMagnitude b).value)

include hnum hden hvalue

private theorem max_quotientLog2 : max (quotientLog2 num den - 52) (-1074) =
    (Binary.ofMagnitude b).exponent := by
  rcases Nat.lt_or_ge b binade with h | h
  · have hlog := quotientLog2_lt hnum hden (hvalue.trans_lt (value_lt h))
    rw [ofMagnitude_of_lt h]
    dsimp only
    omega
  · obtain ⟨hlow, hhigh⟩ := value_bounds h
    have hlog :
        quotientLog2 num den = 52 + (Binary.ofMagnitude b).exponent := by
      refine quotientLog2_eq hnum hden (hvalue ▸ hlow) ?_
      rw [hvalue, add_right_comm]
      exact hhigh
    have hpos := one_le_div_binade h
    rw [hlog, ofMagnitude_of_le h]
    dsimp only
    omega

theorem nearest_of_value (hfinite : b < infinite) : nearest num den = b := by
  have hexact := (div_eq_value_iff _ hden).mp hvalue
  have hgrid : 0 < den * 2 ^ (Binary.ofMagnitude b).exponent.toNat := by
    positivity
  have hrounded : roundEven (num * 2 ^ (-(Binary.ofMagnitude b).exponent).toNat)
      (den * 2 ^ (Binary.ofMagnitude b).exponent.toNat) =
        (Binary.ofMagnitude b).significand := by
    rw [hexact, roundEven_mul_self _ hgrid]
  have hnumber : (Binary.ofMagnitude b).significand +
      ((Binary.ofMagnitude b).exponent + 1074).toNat * binade = b := by
    rcases Nat.lt_or_ge b binade with h | h
    · simp [ofMagnitude_of_lt h]
    · have hpos := one_le_div_binade h
      rw [ofMagnitude_of_le h]
      dsimp only
      rw [binade] at hpos ⊢
      omega
  rw [nearest]
  simp only [max_quotientLog2 hnum hden hvalue, Nat.pow_eq, hrounded, hnumber]
  exact Nat.min_eq_right (Nat.le_of_lt hfinite)

end Value

/-! ## Decimals -/

theorem Decimal.nearest_eq {d : Decimal} (hpos : 0 < d.nearest)
    (hfinite : d.nearest < infinite) :
    0 < d.coefficient ∧
      d.nearest = Number.nearest d.numerator d.denominator := by
  rw [Decimal.nearest] at *
  split at hpos
  · contradiction
  · rename_i hne
    rw [if_neg hne] at hfinite ⊢
    split at hfinite
    · exact absurd hfinite (Nat.lt_irrefl _)
    · rename_i hhigh
      rw [if_neg hhigh] at hpos ⊢
      split at hpos
      · contradiction
      · rename_i hlow
        exact ⟨Nat.pos_of_ne_zero hne, if_neg hlow⟩

/-! ## The exact decimal -/

private theorem numerator_div_denominator_toDecimal (x : Binary) :
    (x.toDecimal.numerator : ℚ) / x.toDecimal.denominator = x.value := by
  rw [Binary.toDecimal, Binary.value]
  split
  · have hzero : (-x.exponent).toNat = 0 := by omega
    simp [Decimal.numerator, Decimal.denominator, two_zpow_eq, hzero]
  · have hzero : x.exponent.toNat = 0 := by omega
    have hten : (10 : ℚ) ^ (-x.exponent).toNat =
        2 ^ (-x.exponent).toNat * 5 ^ (-x.exponent).toNat := by
      rw [← mul_pow]
      norm_num
    simp only [Decimal.numerator, Decimal.denominator, Nat.pow_eq, two_zpow_eq,
      hzero]
    push_cast
    rw [hten]
    field_simp

private theorem toDecimal_bounds {x : Binary} (hpos : 0 < x.significand) :
    0 < x.toDecimal.coefficient ∧ x.toDecimal.exponent ≤ 0 ∧
      -(x.toDecimal.coefficient.log2 : ℤ) ≤ x.toDecimal.exponent := by
  rw [Binary.toDecimal]
  split
  · refine ⟨Nat.mul_pos hpos (Nat.pow_pos (by decide)), le_rfl, ?_⟩
    dsimp only
    omega
  · have hcoefficient : 0 < x.significand * Nat.pow 5 (-x.exponent).toNat :=
      Nat.mul_pos hpos (Nat.pow_pos (by decide))
    have hlog : (-x.exponent).toNat ≤
        (x.significand * Nat.pow 5 (-x.exponent).toNat).log2 := by
      rw [Nat.le_log2 (Nat.ne_of_gt hcoefficient)]
      calc 2 ^ (-x.exponent).toNat ≤ 5 ^ (-x.exponent).toNat :=
            Nat.pow_le_pow_left (by decide) _
        _ ≤ x.significand * 5 ^ (-x.exponent).toNat :=
            Nat.le_mul_of_pos_left _ hpos
    refine ⟨hcoefficient, ?_, ?_⟩
    · dsimp only
      omega
    · dsimp only
      omega

private theorem nearest_toDecimal {b : Nat} (hpos : 0 < b)
    (hfinite : b < infinite) :
    (Binary.ofMagnitude b).toDecimal.nearest = b := by
  obtain ⟨hcoefficient, hhigh, hlow⟩ := toDecimal_bounds (significand_pos hpos)
  rw [Decimal.nearest, if_neg (Nat.ne_of_gt hcoefficient), if_neg (by omega),
    if_neg (by omega)]
  refine nearest_of_value ?_ (Nat.pow_pos (by decide))
    (numerator_div_denominator_toDecimal _) hfinite
  exact Nat.mul_pos hcoefficient (Nat.pow_pos (by decide))

theorem Decimal.nearest_le (d : Decimal) : d.nearest ≤ infinite := by
  rw [Decimal.nearest]
  split
  · exact Nat.zero_le _
  · split
    · exact Nat.le_refl _
    · split
      · exact Nat.zero_le _
      · exact Nat.min_le_left ..

theorem Decimal.isNaN_toFloat (d : Decimal) (negative : Bool) :
    (d.toFloat negative).isNaN = false :=
  isNaN_ofMagnitude negative d.nearest_le

/-! ## The shortest decimal -/

private theorem nearest_of_gridPoint? {tie : Tie} {b num den : Nat} {e : ℤ}
    {d : Decimal} (h : gridPoint? tie b num den e = some d) :
    d.nearest = b := by
  unfold gridPoint? at h
  dsimp only at h
  generalize hlow : Decimal.mk _ e = below at h
  generalize hup : Decimal.mk _ e = above at h
  split at h
  · rename_i hbelow habove
    have heq : d = below ∨ d = above := by grind
    rcases heq with rfl | rfl
    · exact eq_of_beq hbelow
    · exact eq_of_beq habove
  · rename_i hbelow _
    cases h
    exact eq_of_beq hbelow
  · rename_i _ habove
    cases h
    exact eq_of_beq habove
  · contradiction

theorem nearest_shortest (tie : Tie) {b : Nat} (hpos : 0 < b)
    (hfinite : b < infinite) : (shortest tie b).nearest = b := by
  rw [shortest]
  cases hgrid : (grids _ _).findSome? (gridPoint? tie b _ _) with
  | none => exact nearest_toDecimal hpos hfinite
  | some d =>
      obtain ⟨e, -, hpoint⟩ := List.exists_of_findSome?_eq_some hgrid
      exact nearest_of_gridPoint? hpoint

end Chartbook.Number
