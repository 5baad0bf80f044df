/-!
# Decimal digits

Rows of decimal digits: recognising, reading, writing and padding them.
-/

namespace Chartbook.Number

def isDigit (c : Char) : Bool := '0' ≤ c && c ≤ '9'

def digitsValue (s : List Char) : Nat :=
  s.foldl (fun v c => 10 * v + (c.toNat - 48)) 0

def spanDigits (s : List Char) : List Char × List Char :=
  (s.takeWhile isDigit, s.dropWhile isDigit)

def digits (n : Nat) : List Char := Nat.toDigits 10 n

def padded (width n : Nat) : List Char :=
  List.replicate (width - (digits n).length) '0' ++ digits n

end Chartbook.Number
