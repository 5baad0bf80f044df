/-!
# Floating-point numbers as bits

A 64-bit float is a sign and a magnitude below `2 ^ 63`.  Magnitudes are
numbered in ascending order of the value they stand for: magnitude `b` below
`infinite` is the finite value `significand * 2 ^ exponent` of
`Binary.ofMagnitude b`, then comes infinity, and above it NaN.
-/

namespace Chartbook.Number

def signBit : Nat := 0x8000000000000000

def binade : Nat := 0x10000000000000

def infinite : Nat := 0x7FF0000000000000

def magnitude (x : Float) : Nat := x.toBits.toNat % signBit

def isNegative (x : Float) : Bool := signBit ≤ x.toBits.toNat

def ofMagnitude (negative : Bool) (b : Nat) : Float :=
  Float.ofBits (UInt64.ofNat (if negative then signBit + b else b))

/-- The number `significand * 2 ^ exponent`. -/
structure Binary where
  significand : Nat
  exponent : Int
  deriving DecidableEq, Repr

def Binary.ofMagnitude (b : Nat) : Binary :=
  if b < binade then ⟨b, -1074⟩
  else ⟨binade + b % binade, (b / binade : Nat) - 1075⟩

def Binary.numerator (x : Binary) : Nat :=
  x.significand * Nat.pow 2 x.exponent.toNat

def Binary.denominator (x : Binary) : Nat := Nat.pow 2 (-x.exponent).toNat

/-- Where a float stands in the total order of all floats: negative ones below,
-0 before 0. -/
def rank (x : Float) : Int :=
  if isNegative x then -1 - (magnitude x : Int) else magnitude x

end Chartbook.Number
