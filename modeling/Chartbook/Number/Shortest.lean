import Chartbook.Number.Literal

/-!
# Number text

A number is written with the fewest decimal digits that read back as the same
float.  The grids `10 ^ e` are tried from coarse to fine; on each grid only the
two neighbours of the value can read back if any point does, and the first grid
with a hit wins.
-/

namespace Chartbook.Number

inductive Tie where
  | upward
  | toEven
  deriving DecidableEq, Repr

/-- The point of the grid `10 ^ e` nearest to `num / den` among those that read
back as magnitude `b`. -/
def gridPoint? (tie : Tie) (b num den : Nat) (e : Int) : Option Decimal :=
  let n := num * Nat.pow 10 (-e).toNat
  let d := den * Nat.pow 10 e.toNat
  let below : Decimal := ⟨n / d, e⟩
  let above : Decimal := ⟨n / d + 1, e⟩
  match below.nearest == b, above.nearest == b with
  | true, true =>
      if 2 * (n % d) < d then some below
      else if d < 2 * (n % d) then some above
      else match tie with
        | .upward => some above
        | .toEven => some (if n / d % 2 = 0 then below else above)
  | true, false => some below
  | false, true => some above
  | false, false => none

def Binary.toDecimal (x : Binary) : Decimal :=
  if 0 ≤ x.exponent then ⟨x.significand * Nat.pow 2 x.exponent.toNat, 0⟩
  else ⟨x.significand * Nat.pow 5 (-x.exponent).toNat, x.exponent⟩

def grids (num den : Nat) : List Int :=
  let top := (quotientLog2 num den + 1) * 30103 / 100000 + 2
  (List.range 24).map fun (i : Nat) => top - i

def shortest (tie : Tie) (b : Nat) : Decimal :=
  let x := Binary.ofMagnitude b
  ((grids x.numerator x.denominator).findSome?
    (gridPoint? tie b x.numerator x.denominator)).getD x.toDecimal

def Decimal.plain (d : Decimal) : List Char :=
  let ds := digits d.coefficient
  let places := (-d.exponent).toNat
  if places = 0 then ds ++ List.replicate d.exponent.toNat '0'
  else if places < ds.length then
    ds.take (ds.length - places) ++ '.' :: ds.drop (ds.length - places)
  else '0' :: '.' :: List.replicate (places - ds.length) '0' ++ ds

def plain (x : Float) : List Char :=
  let b := magnitude x
  if x.isNaN then ['N', 'a', 'N']
  else (if isNegative x then ['-'] else []) ++
    (if b = 0 then ['0']
      else if b = infinite then ['i', 'n', 'f']
      else (shortest .upward b).plain)

def text (x : Float) : String := String.ofList (plain x)

end Chartbook.Number
