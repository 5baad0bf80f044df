import Chartbook.Number.Decimal
import Chartbook.Number.Digits

/-!
# Real numbers as they are read

A reader of documents takes the nearest float for a decimal, or else the quick
way: as many digits as fit into 64 bits, and one float operation with a power of
ten.  The quick way needs no exact arithmetic, and it can miss the nearest
float.
-/

namespace Chartbook.Json

open Chartbook.Number (Decimal digitsValue infinite ofMagnitude)

inductive Rounding where
  | nearest
  | quick
  deriving DecidableEq, Repr

/-- Goes on with digits as long as they fit, and counts those it has taken. -/
def takeDigits (n : Nat) : List Char → Nat × Nat
  | [] => (n, 0)
  | c :: rest =>
      let next := 10 * n + digitsValue [c]
      if next < 0x10000000000000000 then
        let (n, taken) := takeDigits next rest
        (n, taken + 1)
      else (n, 0)

def wholeFloat (n : Nat) : Float := (⟨n, 0⟩ : Decimal).toFloat false

def powerOfTen (k : Nat) : Float := (⟨1, k⟩ : Decimal).toFloat false

def lastPower : Nat := 308

def raise (x : Float) (k : Nat) : Float :=
  if k ≤ lastPower then x * powerOfTen k
  else if x == 0.0 then x
  else ofMagnitude false infinite

def lowerBy (x : Float) : Nat → Float
  | 0 => x
  | steps + 1 =>
      if x == 0.0 then x else lowerBy (x / powerOfTen lastPower) steps

def lower (x : Float) (k : Nat) : Float :=
  let steps := (k - 1) / lastPower
  lowerBy x steps / powerOfTen (k - lastPower * steps)

/-- A number that has a point or an exponent, or is too large for a count. -/
structure Numeral where
  whole : List Char
  fraction : List Char := []
  exponent : Int := 0
  deriving DecidableEq, Repr

def Numeral.decimal (n : Numeral) : Decimal :=
  ⟨digitsValue (n.whole ++ n.fraction), n.exponent - n.fraction.length⟩

def Numeral.quickFloat (n : Numeral) : Float :=
  let (value, taken) := takeDigits 0 n.whole
  let (value, places) := takeDigits value n.fraction
  let exponent := n.exponent + (n.whole.length - taken : Nat) - places
  if 0 ≤ exponent then raise (wholeFloat value) exponent.toNat
  else lower (wholeFloat value) (-exponent).toNat

/-- What is too large for a float is infinite. -/
def Numeral.toFloat (n : Numeral) (minus : Bool) : Rounding → Float
  | .nearest => n.decimal.toFloat minus
  | .quick => if minus then -n.quickFloat else n.quickFloat

end Chartbook.Json
