import Chartbook.Proofs.Number.Nearest

/-!
# Rounding keeps the order

A quotient is rounded on a grid that leaves it 53 binary digits.  The grid of a
greater quotient is as fine or coarser, and magnitudes are numbered in ascending
order, so the nearest magnitude is as great or greater.
-/

namespace Chartbook.Number

/-! ## Rounding to a natural number -/

theorem roundEven_bounds (num den : Nat) :
    num / den ≤ roundEven num den ∧ roundEven num den ≤ num / den + 1 := by
  have hparity := Nat.mod_lt (num / den) (show 0 < 2 by decide)
  rw [roundEven]
  split
  · omega
  · split <;> omega

theorem two_mul_roundEven_le (num den : Nat) :
    2 * (roundEven num den * den) ≤ 2 * num + den := by
  have hsplit := Nat.div_add_mod' num den
  have hparity := Nat.mod_lt (num / den) (show 0 < 2 by decide)
  have hle : num / den + num / den % 2 ≤ num / den + 1 := by omega
  have hmul := Nat.mul_le_mul_right den hle
  rw [Nat.add_one_mul] at hmul
  rw [roundEven]
  split
  · omega
  · split
    · rw [Nat.add_one_mul (num / den)]
      omega
    · omega

theorem roundEven_mono {num num' : Nat} (h : num ≤ num') (den : Nat) :
    roundEven num den ≤ roundEven num' den := by
  obtain ⟨-, hhigh⟩ := roundEven_bounds num den
  obtain ⟨hlow, -⟩ := roundEven_bounds num' den
  rcases Nat.lt_or_eq_of_le (Nat.div_le_div_right h (c := den)) with
    hlt | heq
  · omega
  · have hmod : num % den ≤ num' % den := by
      have hnum := Nat.div_add_mod num den
      have hnum' := Nat.div_add_mod num' den
      rw [heq] at hnum
      omega
    have hparity := Nat.mod_lt (num' / den) (show 0 < 2 by decide)
    simp only [roundEven, heq]
    split <;> split <;> (try split) <;> (try split) <;> omega

/-! ## The grid of a quotient -/

/-- The quotient `a / d` has 53 digits above the place `p`, or fewer above the
lowest place. -/
structure IsPlace (a d p : Nat) : Prop where
  lt : a < d * 2 ^ (p + 53)
  full : p = 0 ∨ d * 2 ^ (p + 52) ≤ a

namespace IsPlace

variable {a a' d p p' : Nat}

theorem le_of_full (h : IsPlace a d p) (h' : p' = 0 ∨ d * 2 ^ (p' + 52) ≤ a) :
    p' ≤ p := by
  rcases h' with rfl | h'
  · exact Nat.zero_le _
  · have hlt := Nat.lt_of_mul_lt_mul_left (h'.trans_lt h.lt)
    rw [Nat.pow_lt_pow_iff_right (by decide)] at hlt
    omega

theorem unique (h : IsPlace a d p) (h' : IsPlace a d p') : p = p' :=
  Nat.le_antisymm (h'.le_of_full h.full) (h.le_of_full h'.full)

theorem mono (h : IsPlace a d p) (h' : IsPlace a' d p') (hle : a ≤ a') :
    p ≤ p' :=
  h'.le_of_full (h.full.imp_right fun hfull => hfull.trans hle)

theorem roundEven_bounds (h : IsPlace a d p) (hd : 0 < d) :
    (p = 0 ∨ binade ≤ roundEven a (d * 2 ^ p)) ∧
      roundEven a (d * 2 ^ p) ≤ 2 * binade := by
  have hgrid : 0 < d * 2 ^ p := Nat.mul_pos hd (Nat.two_pow_pos _)
  obtain ⟨hlow, hhigh⟩ := Number.roundEven_bounds a (d * 2 ^ p)
  constructor
  · refine h.full.imp_right fun hfull => le_trans ?_ hlow
    rw [Nat.le_div_iff_mul_le hgrid]
    refine Eq.trans_le ?_ hfull
    rw [binade, Nat.pow_add]
    ring
  · have hlt : a / (d * 2 ^ p) < 2 * binade := by
      rw [Nat.div_lt_iff_lt_mul hgrid]
      refine h.lt.trans_eq ?_
      rw [binade, Nat.pow_add]
      ring
    omega

end IsPlace

section Quotient

variable {num den : Nat} (hnum : 0 < num) (hden : 0 < den)
include hnum hden

theorem isPlace_quotientLog2 : IsPlace (num * 2 ^ onePlace) den
    (max (quotientLog2 num den - 52) (-1074) + 1074).toNat := by
  obtain ⟨hlow, hhigh⟩ := quotientLog2_bounds hnum hden
  generalize hplace : (max (quotientLog2 num den - 52) (-1074) + 1074).toNat = p
  have hone : onePlace = 1074 := rfl
  constructor
  · have hlt : (num : ℚ) / den < 2 ^ ((p : ℤ) - 1021) := by
      refine hhigh.trans_le (zpow_le_zpow_right₀ (by norm_num) ?_)
      omega
    rw [← not_le, ← mul_two_pow_le_iff hden, Nat.not_le] at hlt
    have hscaled := Nat.mul_lt_mul_of_pos_right hlt
      (Nat.two_pow_pos (onePlace - (-((p : ℤ) - 1021)).toNat))
    rw [Nat.mul_assoc, Nat.mul_assoc, ← Nat.pow_add, ← Nat.pow_add] at hscaled
    rwa [show (-((p : ℤ) - 1021)).toNat +
        (onePlace - (-((p : ℤ) - 1021)).toNat) = onePlace by omega,
      show ((p : ℤ) - 1021).toNat +
        (onePlace - (-((p : ℤ) - 1021)).toNat) = p + 53 by omega] at hscaled
  · rcases Nat.eq_zero_or_pos p with hzero | hpos
    · exact .inl hzero
    · right
      have hlog : quotientLog2 num den = p - 1022 := by omega
      rw [hlog, ← mul_two_pow_le_iff hden] at hlow
      have hscaled := Nat.mul_le_mul_right
        (2 ^ (onePlace - (-((p : ℤ) - 1022)).toNat)) hlow
      rw [Nat.mul_assoc, Nat.mul_assoc, ← Nat.pow_add,
        ← Nat.pow_add] at hscaled
      rwa [show (-((p : ℤ) - 1022)).toNat +
          (onePlace - (-((p : ℤ) - 1022)).toNat) = onePlace by omega,
        show ((p : ℤ) - 1022).toNat +
          (onePlace - (-((p : ℤ) - 1022)).toNat) = p + 52 by omega] at hscaled

theorem nearest_eq {p : Nat} (h : IsPlace (num * 2 ^ onePlace) den p) :
    nearest num den = min infinite
      (roundEven (num * 2 ^ onePlace) (den * 2 ^ p) + p * binade) := by
  have hplace := (isPlace_quotientLog2 hnum hden).unique h
  have hlow : -1074 ≤ max (quotientLog2 num den - 52) (-1074) :=
    le_max_right ..
  rw [nearest, Nat.pow_eq, Nat.pow_eq]
  generalize max (quotientLog2 num den - 52) (-1074) = q at hplace hlow
  have hscale := @roundEven_mul_right (num * 2 ^ (-q).toNat)
    (den * 2 ^ q.toNat) (2 ^ (p - q.toNat)) (Nat.two_pow_pos _)
  rw [Nat.mul_assoc, Nat.mul_assoc, ← Nat.pow_add, ← Nat.pow_add,
    show (-q).toNat + (p - q.toNat) = onePlace by rw [onePlace]; omega,
    show q.toNat + (p - q.toNat) = p by omega] at hscale
  rw [hplace, hscale]

end Quotient

/-! ## Greater quotients -/

section Order

variable {num num' den den' : Nat} (hnum : 0 < num) (hden : 0 < den)
include hnum hden

private theorem nearest_mono_num (h : num ≤ num') :
    nearest num den ≤ nearest num' den := by
  have hnum' : 0 < num' := hnum.trans_le h
  have hplace := isPlace_quotientLog2 hnum hden
  have hplace' := isPlace_quotientLog2 hnum' hden
  have hle : num * 2 ^ onePlace ≤ num' * 2 ^ onePlace :=
    Nat.mul_le_mul_right _ h
  rw [nearest_eq hnum hden hplace, nearest_eq hnum' hden hplace']
  obtain ⟨-, hhigh⟩ := hplace.roundEven_bounds hden
  obtain ⟨hlow, -⟩ := hplace'.roundEven_bounds hden
  refine min_le_min_left _ ?_
  rcases Nat.lt_or_eq_of_le (hplace.mono hplace' hle) with hlt | heq
  · have hnext := Nat.mul_le_mul_right binade hlt
    rw [Nat.succ_mul] at hnext
    have hfull := hlow.resolve_left (by omega)
    omega
  · rw [heq]
    exact Nat.add_le_add_right (roundEven_mono hle _) _

theorem nearest_mono (hden' : 0 < den') (h : num * den' ≤ num' * den) :
    nearest num den ≤ nearest num' den' := by
  have hnum' : 0 < num' :=
    Nat.pos_of_mul_pos_right ((Nat.mul_pos hnum hden').trans_le h)
  rw [← nearest_mul_right hnum hden hden',
    ← nearest_mul_right hnum' hden' hden, Nat.mul_comm den' den]
  exact nearest_mono_num (Nat.mul_pos hnum hden') (Nat.mul_pos hden hden') h

end Order

section Bounds

variable {num den b : Nat} (hnum : 0 < num) (hden : 0 < den) (hpos : 0 < b)
  (hfinite : b < infinite)
include hnum hden hpos hfinite

theorem nearest_le_of_le_value
    (h : (num : ℚ) / den ≤ (Binary.ofMagnitude b).value) :
    nearest num den ≤ b := by
  have hvalue := (Binary.ofMagnitude b).value_eq
  have hnumerator := numerator_pos hpos
  have hdenominator := (Binary.ofMagnitude b).denominator_pos
  have hself := nearest_of_value hnumerator hdenominator hvalue.symm hfinite
  rw [hvalue, div_le_div_iff₀ (by exact_mod_cast hden)
    (by exact_mod_cast hdenominator)] at h
  refine (nearest_mono hnum hden hdenominator ?_).trans_eq hself
  exact_mod_cast h

omit hnum in
theorem le_nearest_of_value_le
    (h : (Binary.ofMagnitude b).value ≤ (num : ℚ) / den) :
    b ≤ nearest num den := by
  have hvalue := (Binary.ofMagnitude b).value_eq
  have hnumerator := numerator_pos hpos
  have hdenominator := (Binary.ofMagnitude b).denominator_pos
  have hself := nearest_of_value hnumerator hdenominator hvalue.symm hfinite
  rw [hvalue, div_le_div_iff₀ (by exact_mod_cast hdenominator)
    (by exact_mod_cast hden)] at h
  refine hself.symm.trans_le (nearest_mono hnumerator hdenominator hden ?_)
  exact_mod_cast h

end Bounds

/-! ## The nearest float of a natural number -/

theorem ofMagnitude_add {r p : Nat} (hfull : p = 0 ∨ binade ≤ r)
    (hlt : r < 2 * binade) :
    Binary.ofMagnitude (r + p * binade) = ⟨r, (p : Int) - 1074⟩ := by
  rw [binade] at hfull hlt
  rcases Nat.lt_or_ge (r + p * binade) binade with hsmall | hlarge
  · rw [ofMagnitude_of_lt hsmall]
    rw [binade] at hsmall ⊢
    obtain rfl : p = 0 := by omega
    simp
  · rw [ofMagnitude_of_le hlarge]
    rw [binade] at hlarge ⊢
    rw [Binary.mk.injEq]
    constructor <;> omega

private theorem value_add {r p : Nat} (hfull : p = 0 ∨ binade ≤ r)
    (hle : r ≤ 2 * binade) :
    (Binary.ofMagnitude (r + p * binade)).value =
      (r * 2 ^ p : Nat) / 2 ^ onePlace := by
  have hexact {r p : Nat} (hfull : p = 0 ∨ binade ≤ r) (hlt : r < 2 * binade) :
      (Binary.ofMagnitude (r + p * binade)).value =
        (r * 2 ^ p : Nat) / 2 ^ onePlace := by
    rw [ofMagnitude_add hfull hlt, Binary.value]
    have hone : (1074 : ℤ) = (onePlace : Nat) := rfl
    dsimp only
    rw [hone, zpow_sub₀ (by norm_num), zpow_natCast, zpow_natCast,
      Nat.cast_mul, Nat.cast_pow, Nat.cast_ofNat, mul_div_assoc]
  rcases Nat.lt_or_eq_of_le hle with hlt | rfl
  · exact hexact hfull hlt
  · have hcarry : 2 * binade + p * binade = binade + (p + 1) * binade := by
      ring
    rw [hcarry, hexact (.inr le_rfl) (by decide), Nat.pow_succ]
    congr 2
    ring

section Whole

variable {n : Nat} (hn : 0 < n)
include hn

theorem exists_value_nearest (hfinite : nearest n 1 < infinite) :
    ∃ p, IsPlace (n * 2 ^ onePlace) 1 p ∧
      (Binary.ofMagnitude (nearest n 1)).value =
        (roundEven (n * 2 ^ onePlace) (2 ^ p) * 2 ^ p : Nat) /
          2 ^ onePlace := by
  have hplace := isPlace_quotientLog2 hn Nat.one_pos
  obtain ⟨hfull, hle⟩ := hplace.roundEven_bounds Nat.one_pos
  have heq := nearest_eq hn Nat.one_pos hplace
  rw [Nat.one_mul] at hfull hle heq
  refine ⟨_, hplace, ?_⟩
  rw [min_eq_right (by omega)] at heq
  rw [heq, value_add hfull hle]

/-- Rounding adds no more than one part in `2 ^ 53` to a natural number. -/
theorem value_nearest_le (hfinite : nearest n 1 < infinite) :
    (Binary.ofMagnitude (nearest n 1)).value ≤ n * (1 + 1 / 2 ^ 53) := by
  obtain ⟨p, hplace, hvalue⟩ := exists_value_nearest hn hfinite
  have hle := two_mul_roundEven_le (n * 2 ^ onePlace) (2 ^ p)
  have hround : roundEven (n * 2 ^ onePlace) (2 ^ p) * 2 ^ p * 2 ^ 53 ≤
      n * (2 ^ 53 + 1) * 2 ^ onePlace := by
    rcases hplace.full with rfl | hfull
    · have hexact := @roundEven_mul_self (n * 2 ^ onePlace) (2 ^ 0)
        Nat.one_pos
      rw [Nat.pow_zero, Nat.mul_one] at hexact
      rw [Nat.pow_zero, hexact]
      linarith
    · rw [Nat.one_mul, Nat.pow_add] at hfull
      linarith
  have hcast : ((roundEven (n * 2 ^ onePlace) (2 ^ p) * 2 ^ p : Nat) : ℚ) *
      2 ^ 53 ≤ n * (2 ^ 53 + 1) * 2 ^ onePlace := by
    exact_mod_cast hround
  rw [hvalue, div_le_iff₀ (by positivity)]
  linarith

theorem one_le_value_nearest (hfinite : nearest n 1 < infinite) :
    1 ≤ (Binary.ofMagnitude (nearest n 1)).value := by
  obtain ⟨p, hplace, hvalue⟩ := exists_value_nearest hn hfinite
  obtain ⟨hlow, -⟩ := roundEven_bounds (n * 2 ^ onePlace) (2 ^ p)
  have hround : 2 ^ onePlace ≤
      roundEven (n * 2 ^ onePlace) (2 ^ p) * 2 ^ p := by
    rcases Nat.le_total p onePlace with hp | hp
    · have hsplit : 2 ^ onePlace = 2 ^ (onePlace - p) * 2 ^ p := by
        rw [← Nat.pow_add, Nat.sub_add_cancel hp]
      refine hsplit.trans_le (Nat.mul_le_mul_right _ (le_trans ?_ hlow))
      rw [Nat.le_div_iff_mul_le (Nat.two_pow_pos p), ← hsplit]
      exact Nat.le_mul_of_pos_left _ hn
    · obtain ⟨hfull, -⟩ := hplace.roundEven_bounds Nat.one_pos
      rw [Nat.one_mul] at hfull
      have hpos : 0 < roundEven (n * 2 ^ onePlace) (2 ^ p) := by
        refine lt_of_lt_of_le (by decide) (hfull.resolve_left ?_)
        rw [onePlace] at hp
        omega
      exact (Nat.pow_le_pow_right (by decide) hp).trans
        (Nat.le_mul_of_pos_left _ hpos)
  rw [hvalue, one_le_div (by positivity)]
  exact_mod_cast hround

theorem value_nearest_of_digits {m t : Nat} (hfinite : nearest n 1 < infinite)
    (hm : m < 2 ^ 53) (h : n = m * 2 ^ t) :
    (Binary.ofMagnitude (nearest n 1)).value = n := by
  obtain ⟨p, hplace, hvalue⟩ := exists_value_nearest hn hfinite
  have hsplit : n * 2 ^ onePlace = m * 2 ^ (t + onePlace) := by
    rw [h, Nat.mul_assoc, Nat.pow_add]
  have hp : p ≤ t + onePlace := by
    rcases hplace.full with rfl | hfull
    · exact Nat.zero_le _
    · rw [Nat.one_mul, hsplit] at hfull
      have hlt := hfull.trans_lt
        (Nat.mul_lt_mul_of_pos_right hm (Nat.two_pow_pos (t + onePlace)))
      rw [← Nat.pow_add, Nat.pow_lt_pow_iff_right (by decide)] at hlt
      omega
  have hgrid : n * 2 ^ onePlace = m * 2 ^ (t + onePlace - p) * 2 ^ p := by
    rw [hsplit, Nat.mul_assoc, ← Nat.pow_add, Nat.sub_add_cancel hp]
  rw [hvalue, hgrid, roundEven_mul_self _ (Nat.two_pow_pos p), ← hgrid,
    Nat.cast_mul, Nat.cast_pow, Nat.cast_ofNat]
  exact mul_div_cancel_right₀ _ (by positivity)

end Whole

end Chartbook.Number
