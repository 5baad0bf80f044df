import Chartbook.Number.Literal
import Chartbook.Text.Blank

/-!
# Locale-tolerant numbers

Numbers as people write them in tables: with a currency symbol, white space and
thousands separators, with a decimal comma or a decimal point, and as
percentages.  The separator that comes last is the decimal one; a percentage
always has a decimal comma.
-/

namespace Chartbook.Number

def currencySymbols : List (List Char) :=
  [['R', '$'], ['U', 'S', '$'], ['€'], ['£']]

def stripSymbols (symbols : List (List Char)) (s : List Char) : List Char :=
  symbols.foldl (fun s symbol => (symbol.isPrefixOf? s).getD s) s

def commaToPoint (s : List Char) : List Char :=
  (s.filter (· ≠ '.')).map fun c => if c = ',' then '.' else c

def dropCommas (s : List Char) : List Char := s.filter (· ≠ ',')

def lastSeparator? (s : List Char) : Option Char :=
  s.reverse.find? fun c => c == ',' || c == '.'

/-- The plain spelling of a number whose last separator is the decimal one. -/
def toPointForm (s : List Char) : List Char :=
  if lastSeparator? s = some ',' then commaToPoint s else dropCommas s

def stripPercent? (s : List Char) : Option (List Char) :=
  match s.reverse with
  | '%' :: body => some body.reverse
  | _ => none

def ofCompact? (s : List Char) : Option Float :=
  match stripPercent? s with
  | some body => (ofPlain? (commaToPoint body)).map (· / 100)
  | none => ofPlain? (toPointForm s)

/-- Reads a number in any of the tolerated spellings; a dash and a blank text
are missing values. -/
def ofLocale? (s : List Char) : Option Float :=
  let s := Text.trim s
  if s = [] ∨ s = ['—'] then none
  else ofCompact?
    ((stripSymbols currencySymbols s).filter fun c => !Text.isBlank c)

end Chartbook.Number
