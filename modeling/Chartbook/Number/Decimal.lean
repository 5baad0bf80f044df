import Chartbook.Number.Binary

/-!
# Decimals

Decimal numbers and the magnitude nearest to one, by exact arithmetic on natural
numbers.
-/

namespace Chartbook.Number

structure Decimal where
  coefficient : Nat
  exponent : Int
  deriving DecidableEq, Repr

def Decimal.numerator (d : Decimal) : Nat :=
  d.coefficient * Nat.pow 10 d.exponent.toNat

def Decimal.denominator (d : Decimal) : Nat := Nat.pow 10 (-d.exponent).toNat

def roundEven (num den : Nat) : Nat :=
  if 2 * (num % den) < den then num / den
  else if den < 2 * (num % den) then num / den + 1
  else num / den + num / den % 2

/-- The greatest `l` with `2 ^ l ≤ num / den`, for positive numbers. -/
def quotientLog2 (num den : Nat) : Int :=
  let l : Int := (num.log2 : Int) - den.log2
  if den * Nat.pow 2 l.toNat ≤ num * Nat.pow 2 (-l).toNat then l else l - 1

/--
The magnitude nearest to a positive quotient.  The quotient is rounded to a
multiple of `2 ^ q` that leaves 53 digits, or fewer below the least normal
number; rounding up to the next power of two moves on to the next exponent by
itself, because magnitudes are numbered in ascending order.
-/
def nearest (num den : Nat) : Nat :=
  let q := max (quotientLog2 num den - 52) (-1074)
  min infinite
    (roundEven (num * Nat.pow 2 (-q).toNat) (den * Nat.pow 2 q.toNat) +
      (q + 1074).toNat * binade)

/--
The magnitude nearest to a decimal.  The first tests only keep the powers of ten
small: from `10 ^ 401` on everything is infinite, and below `10 ^ -400`
everything is zero.
-/
def Decimal.nearest (d : Decimal) : Nat :=
  if d.coefficient = 0 then 0
  else if 400 < d.exponent then infinite
  else if d.exponent < -(400 + d.coefficient.log2) then 0
  else Number.nearest d.numerator d.denominator

def Decimal.toFloat (d : Decimal) (negative : Bool) : Float :=
  ofMagnitude negative d.nearest

end Chartbook.Number
