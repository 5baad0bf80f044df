import Chartbook.Json.Printer
import Chartbook.Json.Token
import Chartbook.Proofs.Number.Finite
import Chartbook.Proofs.Number.ReadBack

/-!
# Numbers in documents

A number is read back from its text as a number of the same kind: a count as
itself, and a real number as what the reader makes of its digits.  Real numbers
have a point or an exponent, which no other number has.
-/

namespace Chartbook.Json

open Chartbook.Number (AllDigits Decimal allDigits_zeros digits digitsValue
  digitsValue_digits digits_ne_nil isDigit isNegative magnitude shortest
  spanDigits_append)

/-! ## The parts of a number -/

/-- Digits without a zero in front, or a single zero. -/
structure IsWhole (s : List Char) : Prop where
  ne_nil : s ≠ []
  allDigits : AllDigits s
  eq_zero : s.head? = some '0' → s = ['0']

theorem IsWhole.append {s s' : List Char} (h : IsWhole s) (hs' : AllDigits s')
    (hzero : s ≠ ['0']) : IsWhole (s ++ s') := by
  obtain ⟨c, s, rfl⟩ := List.exists_cons_of_ne_nil h.ne_nil
  exact ⟨List.cons_ne_nil _ _, h.allDigits.append hs',
    fun hhead => absurd (h.eq_zero hhead) hzero⟩

theorem IsWhole.take {s : List Char} (h : IsWhole s) {n : Nat} (hn : 0 < n)
    (hzero : s ≠ ['0']) : IsWhole (s.take n) where
  ne_nil := by
    rw [ne_eq, List.take_eq_nil_iff, not_or]
    exact ⟨Nat.ne_of_gt hn, h.ne_nil⟩
  allDigits c hc := h.allDigits c (List.mem_of_mem_take hc)
  eq_zero hhead := by
    rw [List.head?_take, if_neg (Nat.ne_of_gt hn)] at hhead
    exact absurd (h.eq_zero hhead) hzero

theorem isWhole_singleton {c : Char} (h : isDigit c = true) : IsWhole [c] :=
  ⟨List.cons_ne_nil _ _, List.forall_mem_singleton.mpr h, fun hhead => by
    rw [Option.some.inj hhead]⟩

theorem isWhole_digits (n : Nat) : IsWhole (digits n) where
  ne_nil := digits_ne_nil n
  allDigits _ := Chartbook.Number.isDigit_of_mem_digits
  eq_zero hhead := by
    rw [Chartbook.Number.eq_zero_of_head?_digits hhead]
    rfl

abbrev EndsDigits (s : List Char) : Prop := ∀ c ∈ s.head?, isDigit c = false

theorem wholeDigits?_append {s rest : List Char} (h : IsWhole s)
    (hrest : EndsDigits rest) :
    wholeDigits? (s ++ rest) = some (s, rest) := by
  rw [wholeDigits?, spanDigits_append h.allDigits hrest]
  split
  · rename_i heq
    exact absurd (Prod.mk.inj heq).1 h.ne_nil
  · rename_i heq
    obtain ⟨rfl, rfl⟩ := Prod.mk.inj heq
    rfl
  · rename_i hzero heq
    obtain ⟨rfl, rfl⟩ := Prod.mk.inj heq
    cases h.eq_zero rfl
    exact (hzero rfl).elim
  · rfl

def pointed (fraction : List Char) : List Char :=
  if fraction = [] then [] else '.' :: fraction

theorem fractionDigits?_pointed {fraction rest : List Char}
    (h : AllDigits fraction) (hrest : EndsDigits rest)
    (hpoint : rest.head? ≠ some '.') :
    fractionDigits? (pointed fraction ++ rest) = some (fraction, rest) := by
  rw [pointed]
  split
  · rename_i hnil
    rw [hnil, List.nil_append, fractionDigits?]
    intro rest' heq
    exact hpoint (congrArg List.head? heq)
  · rename_i hne
    rw [List.cons_append, fractionDigits?, spanDigits_append h hrest]
    split
    · rename_i heq
      exact absurd (Prod.mk.inj heq).1 hne
    · rfl

def sign (minus : Bool) : List Char := if minus then ['-'] else []

theorem IsWhole.ne_minus {whole : List Char} (h : IsWhole whole)
    (rest s : List Char) : whole ++ rest ≠ '-' :: s := by
  obtain ⟨c, whole, rfl⟩ := List.exists_cons_of_ne_nil h.ne_nil
  intro heq
  have hc := h.allDigits c (List.mem_cons_self ..)
  rw [(List.cons.inj heq).1] at hc
  contradiction

/-! ## Reading numbers -/

namespace Number

variable {rounding : Rounding}

theorem ofChars?_signed {whole rest : List Char} (hwhole : IsWhole whole)
    (hrest : EndsDigits rest) (minus : Bool) :
    ofChars? rounding (sign minus ++ (whole ++ rest)) =
      if rest = [] then some (.ofWhole rounding minus whole)
      else (fractionDigits? rest).bind fun (fraction, s) =>
        (Chartbook.Number.exponent? s).bind fun e =>
          some (.real ((Numeral.mk whole fraction e).toFloat minus
            rounding)) := by
  cases minus with
  | true =>
      change ofChars? rounding ('-' :: (whole ++ rest)) = _
      rw [ofChars?, wholeDigits?_append hwhole hrest]
      rfl
  | false =>
      change ofChars? rounding (whole ++ rest) = _
      rw [ofChars?.eq_2 _ _ fun s => hwhole.ne_minus rest s,
        wholeDigits?_append hwhole hrest]
      rfl

theorem ofChars?_whole {whole : List Char} (h : IsWhole whole)
    (minus : Bool) :
    ofChars? rounding (sign minus ++ whole) =
      some (.ofWhole rounding minus whole) := by
  have hread := @ofChars?_signed rounding whole [] h nofun minus
  rwa [List.append_nil] at hread

/-- A text that is read as a real number, with or without a minus sign. -/
structure ReadsAs (s : List Char) (n : Numeral) : Prop where
  isWhole : IsWhole n.whole
  allDigits : AllDigits n.fraction
  ofChars? (rounding : Rounding) (minus : Bool) :
    ofChars? rounding (sign minus ++ s) =
      some (.real (n.toFloat minus rounding))

theorem readsAs_real {whole fraction exponent : List Char} {e : Int}
    (hwhole : IsWhole whole) (hfraction : AllDigits fraction)
    (hends : EndsDigits exponent) (hpoint : exponent.head? ≠ some '.')
    (he : Chartbook.Number.exponent? exponent = some e)
    (hne : pointed fraction ++ exponent ≠ []) :
    ReadsAs (whole ++ (pointed fraction ++ exponent)) ⟨whole, fraction, e⟩ := by
  refine ⟨hwhole, hfraction, fun rounding minus => ?_⟩
  have hpointed : EndsDigits (pointed fraction ++ exponent) := by
    rw [pointed]
    split
    · exact hends
    · rintro c ⟨⟩
      rfl
  rw [ofChars?_signed hwhole hpointed, if_neg hne,
    fractionDigits?_pointed hfraction hends hpoint, Option.bind_some]
  dsimp only
  rw [he, Option.bind_some]

theorem readsAs_point {whole fraction : List Char} (hwhole : IsWhole whole)
    (hfraction : AllDigits fraction) (hne : fraction ≠ []) :
    ReadsAs (whole ++ '.' :: fraction) ⟨whole, fraction, 0⟩ := by
  have hpointed : pointed fraction ++ [] = '.' :: fraction := by
    rw [pointed, if_neg hne, List.append_nil]
  have hreads := @readsAs_real whole fraction [] 0 hwhole hfraction nofun nofun
    rfl (by rw [hpointed]; exact List.cons_ne_nil _ _)
  rwa [hpointed] at hreads

/-! ## Writing real numbers -/

end Number

def positionalNumeral (ds : List Char) (point : Int) : Numeral :=
  if point ≤ 0 then ⟨['0'], List.replicate (-point).toNat '0' ++ ds, 0⟩
  else if point.toNat < ds.length then
    ⟨ds.take point.toNat, ds.drop point.toNat, 0⟩
  else ⟨ds ++ List.replicate (point.toNat - ds.length) '0', ['0'], 0⟩

def scientificNumeral (ds : List Char) (exponent : Int) : Numeral :=
  ⟨ds.take 1, ds.drop 1, exponent⟩

namespace Number

private theorem exponent?_digits (e : Int) :
    Chartbook.Number.exponent?
      ('e' :: (if e < 0 then ['-'] else []) ++ digits e.natAbs) = some e := by
  have hne := digits_ne_nil e.natAbs
  have hall : (digits e.natAbs).all isDigit = true :=
    List.all_eq_true.mpr (isWhole_digits e.natAbs).allDigits
  have hspan : Chartbook.Number.spanSign
      ((if e < 0 then ['-'] else []) ++ digits e.natAbs) =
        (decide (e < 0), digits e.natAbs) := by
    split
    · rename_i hneg
      rw [decide_eq_true hneg]
      rfl
    · rename_i hneg
      rw [decide_eq_false hneg, List.nil_append]
      obtain ⟨c, s, hcons⟩ := List.exists_cons_of_ne_nil hne
      rw [hcons, List.all_cons, Bool.and_eq_true] at hall
      rw [hcons, Chartbook.Number.spanSign]
      · rintro rest heq
        rw [(List.cons.inj heq).1] at hall
        exact absurd hall.1 (by decide)
      · rintro rest heq
        rw [(List.cons.inj heq).1] at hall
        exact absurd hall.1 (by decide)
  rw [List.cons_append, Chartbook.Number.exponent?, if_pos (.inl rfl), hspan]
  dsimp only
  rw [if_pos ⟨hne, hall⟩, digitsValue_digits]
  split <;> rename_i hneg <;> rw [decide_eq_true_eq] at hneg <;>
    rw [Option.some.injEq] <;> omega

theorem readsAs_scientific (c : Nat) (exponent : Int) :
    ReadsAs (scientific (digits c) exponent)
      (scientificNumeral (digits c) exponent) := by
  have hdigits := isWhole_digits c
  obtain ⟨first, fraction, hcons⟩ := List.exists_cons_of_ne_nil hdigits.ne_nil
  rw [hcons] at hdigits ⊢
  have hfraction : (if (first :: fraction).length ≤ 1 then []
      else '.' :: (first :: fraction).drop 1) = pointed fraction := by
    simp [pointed]
  have hreads := readsAs_real
    (isWhole_singleton (hdigits.allDigits first (List.mem_cons_self ..)))
    (fun c hc => hdigits.allDigits c (List.mem_cons_of_mem _ hc))
    (by rintro _ ⟨⟩; rfl) (by simp) (exponent?_digits exponent) (by simp)
  rw [scientific, hfraction]
  simpa [scientificNumeral] using hreads

theorem readsAs_positional {c : Nat} (hc : c ≠ 0) (point : Int) :
    ReadsAs (positional (digits c) point)
      (positionalNumeral (digits c) point) := by
  have hdigits := isWhole_digits c
  have hzeros := allDigits_zeros
  have hne := digits_ne_nil c
  have hne_zero : digits c ≠ ['0'] := by
    intro heq
    have hvalue := digitsValue_digits c
    rw [heq] at hvalue
    exact hc hvalue.symm
  rw [positional, positionalNumeral]
  split
  · exact readsAs_point (isWhole_singleton (c := '0') rfl)
      ((hzeros (-point).toNat).append hdigits.allDigits)
      (List.append_ne_nil_of_right_ne_nil _ hne)
  · split
    · refine readsAs_point (hdigits.take (by omega) hne_zero)
        (fun c hc => hdigits.allDigits c (List.mem_of_mem_drop hc)) ?_
      rw [ne_eq, List.drop_eq_nil_iff]
      omega
    · exact readsAs_point (hdigits.append (hzeros _) hne_zero) (hzeros 1)
        (List.cons_ne_nil _ _)

end Number

/-! ## The value of what is written -/

section Decimals

variable {d : Decimal} {point : Int}
  (hpoint : point = (digits d.coefficient).length + d.exponent)
include hpoint

theorem decimal_scientificNumeral :
    (scientificNumeral (digits d.coefficient) (point - 1)).decimal = d := by
  have hlength := List.length_pos_of_ne_nil (digits_ne_nil d.coefficient)
  rw [Numeral.decimal, scientificNumeral]
  dsimp only
  rw [List.take_append_drop, digitsValue_digits, List.length_drop]
  congr
  omega

theorem decimal_positionalNumeral :
    (positionalNumeral (digits d.coefficient) point).decimal =
      if 0 ≤ d.exponent
      then ⟨d.coefficient * 10 ^ (d.exponent.toNat + 1), -1⟩ else d := by
  have hlength := List.length_pos_of_ne_nil (digits_ne_nil d.coefficient)
  rw [positionalNumeral, Numeral.decimal]
  split
  · rename_i hsmall
    have hzero := Chartbook.Number.digitsValue_zeros_append
      ((-point).toNat + 1) d.coefficient
    rw [if_neg (by omega)]
    dsimp only
    rw [← List.append_assoc, List.singleton_append, ← List.replicate_succ,
      hzero, List.length_append, List.length_replicate]
    congr
    omega
  · split
    · rw [if_neg (by omega)]
      dsimp only
      rw [List.take_append_drop, digitsValue_digits, List.length_drop]
      congr
      omega
    · rw [if_pos (by omega)]
      dsimp only
      rw [List.append_assoc, ← List.replicate_succ',
        Chartbook.Number.digitsValue_append_zeros]
      congr
      omega

end Decimals

private theorem nearest_written {d : Decimal} (hcoefficient : d.coefficient ≠ 0)
    (hhigh : d.exponent ≤ 400) :
    (if 0 ≤ d.exponent
      then Decimal.mk (d.coefficient * 10 ^ (d.exponent.toNat + 1)) (-1)
      else d).nearest = d.nearest := by
  split
  · rename_i hlow
    have hten : d.coefficient * 10 ^ (d.exponent.toNat + 1) ≠ 0 := by
      positivity
    have hnumerator : 0 < d.numerator :=
      Nat.mul_pos (Nat.pos_of_ne_zero hcoefficient) (Nat.pow_pos (by decide))
    have hdenominator : 0 < d.denominator := Nat.pow_pos (by decide)
    have hzero : (-d.exponent).toNat = 0 := by omega
    rw [Decimal.nearest, if_neg hten, if_neg (show ¬400 < (-1 : Int) by decide),
      if_neg (by dsimp only; omega), Decimal.nearest, if_neg hcoefficient,
      if_neg (by omega), if_neg (by omega),
      ← Chartbook.Number.nearest_mul_right hnumerator hdenominator
        (by decide : 0 < 10)]
    simp [Decimal.numerator, Decimal.denominator, hzero, Nat.pow_succ,
      Nat.mul_assoc]
  · rfl

def writtenNumeral (b : Nat) : Numeral :=
  let d := shortest .toEven b
  let point := (digits d.coefficient).length + d.exponent
  if b = 0 then ⟨['0'], ['0'], 0⟩
  else if -5 < point ∧ point ≤ 16 then
    positionalNumeral (digits d.coefficient) point
  else scientificNumeral (digits d.coefficient) (point - 1)

theorem length_whole_writtenNumeral (b : Nat) :
    (writtenNumeral b).whole.length ≤ 16 := by
  simp only [writtenNumeral]
  split
  · decide
  · split
    · rename_i hpoint
      rw [positionalNumeral]
      split
      · exact Nat.le_of_ble_eq_true rfl
      · split
        · rw [List.length_take]
          omega
        · rw [List.length_append, List.length_replicate]
          omega
    · rw [scientificNumeral, List.length_take]
      omega

section Written

variable {b : Nat} (h : b < Chartbook.Number.infinite)
include h

theorem coefficient_shortest_ne_zero (hpos : 0 < b) :
    (shortest .toEven b).coefficient ≠ 0 := by
  intro hzero
  have hnearest := Chartbook.Number.nearest_shortest .toEven hpos h
  rw [Decimal.nearest, if_pos hzero] at hnearest
  exact hpos.ne hnearest

theorem nearest_writtenNumeral : (writtenNumeral b).decimal.nearest = b := by
  simp only [writtenNumeral]
  split
  · rename_i hzero
    rw [hzero]
    rfl
  · rename_i hne
    have hpos := Nat.pos_of_ne_zero hne
    have hnearest := Chartbook.Number.nearest_shortest .toEven hpos h
    have hlength := List.length_pos_of_ne_nil
      (digits_ne_nil (shortest .toEven b).coefficient)
    split
    · rw [decimal_positionalNumeral rfl,
        nearest_written (coefficient_shortest_ne_zero h hpos) (by omega)]
      exact hnearest
    · rwa [decimal_scientificNumeral rfl]

end Written

theorem exists_readsAs_realChars {x : Float} (h : x.isFinite = true) :
    ∃ s, realChars x = sign (isNegative x) ++ s ∧
      Number.ReadsAs s (writtenNumeral (magnitude x)) := by
  have hfinite := Chartbook.Number.isFinite_iff.mp h
  simp only [realChars, if_pos hfinite, writtenNumeral]
  refine ⟨_, rfl, ?_⟩
  split
  · exact Number.readsAs_point (isWhole_singleton (c := '0') rfl)
      (allDigits_zeros 1) (List.cons_ne_nil _ _)
  · rename_i hne
    split
    · exact Number.readsAs_positional
        (coefficient_shortest_ne_zero hfinite (Nat.pos_of_ne_zero hne)) _
    · exact Number.readsAs_scientific _ _

/-- The number that a reader makes of the text of a number. -/
def Rounding.reread (rounding : Rounding) (x : Float) : Float :=
  match Number.ofChars? rounding (realChars x) with
  | some (.real y) => y
  | _ => x

theorem Number.ofChars?_realChars {x : Float} (h : x.isFinite = true)
    (rounding : Rounding) :
    Number.ofChars? rounding (realChars x) =
      some (.real (rounding.reread x)) := by
  obtain ⟨s, hchars, hreads⟩ := exists_readsAs_realChars h
  rw [Rounding.reread, hchars, hreads.ofChars?]

theorem Rounding.reread_eq (rounding : Rounding) {x : Float}
    (h : x.isFinite = true) :
    rounding.reread x =
      (writtenNumeral (magnitude x)).toFloat (isNegative x) rounding := by
  obtain ⟨s, hchars, hreads⟩ := exists_readsAs_realChars h
  rw [reread, hchars, hreads.ofChars?]

theorem Rounding.reread_of_not_finite (rounding : Rounding) {x : Float}
    (h : x.isFinite = false) : rounding.reread x = x := by
  have hchars : realChars x = ['n', 'u', 'l', 'l'] := by
    rw [← Bool.not_eq_true, Chartbook.Number.isFinite_iff] at h
    exact if_neg h
  rw [reread, hchars]
  rfl

theorem Rounding.nearest_reread (x : Float) : nearest.reread x = x := by
  cases h : x.isFinite with
  | true =>
      rw [reread_eq nearest h]
      change Chartbook.Number.ofMagnitude (isNegative x)
        (writtenNumeral (magnitude x)).decimal.nearest = x
      rw [nearest_writtenNumeral (Chartbook.Number.isFinite_iff.mp h),
        Chartbook.Number.ofMagnitude_magnitude]
  | false => exact nearest.reread_of_not_finite h

namespace Number

variable {rounding : Rounding}

theorem ofChars?_natural {n : Nat} (h : n < 0x10000000000000000) :
    ofChars? rounding (natural n).chars = some (natural n) := by
  have hread := @ofChars?_whole rounding _ (isWhole_digits n) false
  simp only [ofWhole, digitsValue_digits, Bool.false_eq_true, if_false,
    if_pos h] at hread
  exact hread

theorem ofChars?_negative {n : Nat} (h : 1 ≤ n ∧ n ≤ 0x8000000000000000) :
    ofChars? rounding (negative n).chars = some (negative n) := by
  have hread := @ofChars?_whole rounding _ (isWhole_digits n) true
  simp only [ofWhole, digitsValue_digits, if_true, if_pos h] at hread
  exact hread

theorem exists_head_of_ofChars? {s : List Char} {n : Number}
    (h : ofChars? rounding s = some n) :
    ∃ c rest, s = c :: rest ∧ (c = '-' ∨ isDigit c = true) := by
  cases s with
  | nil => contradiction
  | cons c rest =>
      refine ⟨c, rest, rfl, ?_⟩
      by_cases hminus : c = '-'
      · exact .inl hminus
      · refine .inr (Bool.of_not_eq_false fun hdigit => ?_)
        have hwhole : wholeDigits? (c :: rest) = none := by
          have hspan : Chartbook.Number.spanDigits (c :: rest) =
              ([], c :: rest) := @spanDigits_append [] _
            nofun (by rintro _ ⟨⟩; exact hdigit)
          rw [wholeDigits?, hspan]
        rw [ofChars?.eq_2 _ _ fun s heq => hminus (List.cons.inj heq).1,
          hwhole] at h
        contradiction

end Number

end Chartbook.Json
