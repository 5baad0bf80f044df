import Chartbook.Number.Locale
import Chartbook.Number.Shortest

/-!
# Cells

The untyped cells of a table as read: their text, and the two ways to see them
as numbers.  `number?` accepts the spellings of several locales; `plainNumber?`
accepts plain literals only.
-/

namespace Chartbook

inductive Cell where
  | null
  | bool (value : Bool)
  | number (value : Float)
  | text (value : String)
  deriving DecidableEq

namespace Cell

def isNull : Cell → Bool
  | null => true
  | _ => false

def text? : Cell → Option String
  | null => none
  | bool b => some (if b then "true" else "false")
  | number x => some (Number.text x)
  | text s => some s

def number? : Cell → Option Float
  | number x => if x.isNaN then none else some x
  | text s => Number.ofLocale? s.toList
  | null | bool _ => none

/-- The number in a cell, where a text has to be a plain literal. -/
def plainNumber? : Cell → Option Float
  | number x => if x.isNaN then none else some x
  | text s => Number.ofPlain? (Text.trim s.toList)
  | null | bool _ => none

def missingWords : List String :=
  ["NA", "N/A", "n/a", "NaN", "nan", "-NaN", "null", "NULL", "None", "#N/A",
   "<NA>", "#NA"]

/-- The cell that a field of a table file holds: null, a finite number, or the
text as it stands. -/
def ofField (field : String) : Cell :=
  let s := Text.trim field.toList
  if s = [] ∨ String.ofList s ∈ missingWords then null
  else
    match Number.ofPlain? s with
    | some x => if x.isFinite then number x else text field
    | none => text field

end Cell

end Chartbook
