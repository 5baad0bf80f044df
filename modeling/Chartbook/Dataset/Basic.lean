import Chartbook.Calendar.Timestamp
import Chartbook.Classification

/-!
# Datasets

A typed dataset: columns that hold numbers, dates, or cells as they were.  All
views of a column go row by row, and a missing value stays missing.
-/

namespace Chartbook

inductive Values where
  | numbers (values : List (Option Float))
  | dates (values : List (Option Timestamp))
  | texts (cells : List Cell)
  deriving DecidableEq

namespace Values

def length : Values → Nat
  | numbers v => v.length
  | dates v => v.length
  | texts v => v.length

def missingCount : Values → Nat
  | numbers v => v.countP Option.isNone
  | dates v => v.countP Option.isNone
  | texts v => v.countP Cell.isNull

def inferred : Values → Dtype
  | numbers _ => .number
  | dates _ => .date
  | texts _ => .string

/-- The values as numbers: texts have to be plain literals, dates are
missing. -/
def numeric : Values → List (Option Float)
  | numbers v => v
  | dates v => v.map fun _ => none
  | texts v => v.map Cell.plainNumber?

theorem length_numeric (values : Values) :
    values.numeric.length = values.length := by
  cases values <;> simp [numeric, length]

def labels : Values → List (Option String)
  | numbers v => v.map fun x => x.map Number.text
  | dates v => v.map fun t => t.map Timestamp.label
  | texts v => v.map Cell.text?

def areDates : Values → Bool
  | dates _ => true
  | _ => false

def areNumbers : Values → Bool
  | numbers _ => true
  | _ => false

end Values

structure Dataset.Column where
  name : String
  dtype : Dtype
  values : Values
  deriving DecidableEq

structure Dataset where
  columns : List Dataset.Column
  rowCount : Nat
  deriving DecidableEq

namespace Dataset

def column? (d : Dataset) (name : String) : Option Column :=
  d.columns.find? (·.name = name)

def contains (d : Dataset) (name : String) : Bool := (d.column? name).isSome

def isDateColumn (d : Dataset) (name : String) : Bool :=
  (d.column? name).any (·.values.areDates)

def dates? (d : Dataset) (name : String) : Option (List (Option Timestamp)) :=
  match d.column? name with
  | some ⟨_, _, .dates v⟩ => some v
  | _ => none

end Dataset

end Chartbook
