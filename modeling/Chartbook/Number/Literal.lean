import Chartbook.Number.Decimal
import Chartbook.Number.Digits
import Chartbook.Text.LetterCase

/-!
# Number literals

The plain spelling of a number: an optional sign, then digits with an optional
point and an optional exponent, or a word for infinity or for no number.  The
whole text has to be used.
-/

namespace Chartbook.Number

def spanSign : List Char → Bool × List Char
  | '-' :: rest => (true, rest)
  | '+' :: rest => (false, rest)
  | s => (false, s)

def exponent? : List Char → Option Int
  | [] => some 0
  | c :: rest =>
      if c = 'e' ∨ c = 'E' then
        let (negative, digits) := spanSign rest
        if digits ≠ [] ∧ digits.all isDigit then
          some
            (if negative then -(digitsValue digits : Int)
              else digitsValue digits)
        else none
      else none

def spanFraction : List Char → List Char × List Char
  | '.' :: rest => spanDigits rest
  | s => ([], s)

/-- Reads digits with an optional point and exponent; there must be a digit on
one side of the point. -/
def unsigned? (s : List Char) : Option Decimal :=
  let (whole, s) := spanDigits s
  let (fraction, s) := spanFraction s
  if whole = [] ∧ fraction = [] then none
  else (exponent? s).map fun e =>
    ⟨digitsValue (whole ++ fraction), e - fraction.length⟩

/-- A float as a literal denotes it; NaN is the value of the word for no
number. -/
def ofLiteral? (s : List Char) : Option Float :=
  let (negative, s) := spanSign s
  match Text.asciiLower s with
  | ['i', 'n', 'f'] | ['i', 'n', 'f', 'i', 'n', 'i', 't', 'y'] =>
      some (ofMagnitude negative infinite)
  | ['n', 'a', 'n'] => some (0.0 / 0.0)
  | _ => (unsigned? s).map fun d => d.toFloat negative

def ofPlain? (s : List Char) : Option Float :=
  (ofLiteral? s).filter fun x => !x.isNaN

end Chartbook.Number
