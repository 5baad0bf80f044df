import Chartbook.Calendar.Month
import Chartbook.Row
import Chartbook.Dataset.Basic

/-!
# Monthly sums

Columns summed by the calendar month of a date column.  Rows without a date
count nowhere, missing values count as zero, and sums start from zero and go
down the rows.
-/

namespace Chartbook

inductive MonthAxis where
  | occurring
  | continuous
  deriving DecidableEq, Repr, Inhabited

namespace MonthAxis

def text : MonthAxis → String
  | occurring => "groupby"
  | continuous => "resample"

def ofLabel (label : String) : MonthAxis :=
  if Text.lower (Text.trimmed label) = continuous.text then continuous
  else occurring

end MonthAxis

abbrev MonthSums := List (Month × List Float)

namespace MonthSums

def zeros (width : Nat) : List Float := List.replicate width 0.0

def add (m : Month) (values : List Float) : MonthSums → MonthSums
  | [] => [(m, (zeros values.length).zipWith (· + ·) values)]
  | (k, sums) :: rest =>
      if m = k then (k, sums.zipWith (· + ·) values) :: rest
      else if m.before k then
        (m, (zeros values.length).zipWith (· + ·) values) :: (k, sums) :: rest
      else (k, sums) :: add m values rest

def headValue (column : List (Option Float)) : Float :=
  (column.head?.join).getD 0.0

def addRows (sums : MonthSums) :
    List (Option Timestamp) → List (List (Option Float)) → MonthSums
  | [], _ => sums
  | none :: dates, columns => addRows sums dates (columns.map List.tail)
  | some t :: dates, columns =>
      addRows (add (.ofTimestamp t) (columns.map headValue) sums) dates
        (columns.map List.tail)

/-- The months between the first and the last, with zeros where there is no
row. -/
def filled (width : Nat) (sums : MonthSums) : MonthSums :=
  match sums.head?, sums.getLast? with
  | some (first, _), some (last, _) =>
      (Month.run first last).map fun m =>
        (m, (sums.lookup m).getD (zeros width))
  | _, _ => []

def isNonzero (row : Month × List Float) : Bool := row.2.any fun x => x != 0.0

def ofColumns (dates : List (Option Timestamp))
    (columns : List (List (Option Float))) (axis : MonthAxis)
    (dropZero : Bool) : MonthSums :=
  let occurring := addRows [] dates columns
  let rows := match axis with
    | .occurring => occurring
    | .continuous => filled columns.length occurring
  rows.filter fun row => !dropZero || isNonzero row

end MonthSums

inductive AggregationFault where
  | notDates (column : String)
  | noColumn (column : String)
  deriving DecidableEq, Repr

def AggregationFault.reason : AggregationFault → String
  | notDates c => s!"column '{c}' is not a date column"
  | noColumn c => s!"column '{c}' not found"

def AggregationFault.error (fault : AggregationFault) : Error :=
  .aggregation fault.reason

structure Monthly where
  columns : List String
  rows : MonthSums

namespace Monthly

def months (m : Monthly) : List String := m.rows.map (·.1.text)

def value? (m : Monthly) (row : Nat) (column : String) : Option Float := do
  let position ← m.columns.findIdx? (· = column)
  (← m.rows[row]?).2[position]?

/-- The month under the key `month`, then each sum under the name of its
column. -/
def dataRow (columns : List String) (row : Month × List Float) : Row :=
  (columns.zip row.2).foldl (fun r p => r.insert p.1 (.number p.2))
    ((∅ : Row).insert "month" (.text row.1.text))

def dataRows (m : Monthly) : List Row := m.rows.map (dataRow m.columns)

end Monthly

namespace Dataset

def numbersOf (d : Dataset) (name : String) :
    Except Error (List (Option Float)) :=
  match d.column? name with
  | some c => .ok c.values.numeric
  | none => .error (AggregationFault.noColumn name).error

/-- Sums columns by month; with no columns there are no months. -/
def monthly (d : Dataset) (dateColumn : String) (columns : List String)
    (axis : MonthAxis) (dropZero : Bool) : Except Error Monthly :=
  match d.dates? dateColumn with
  | none => .error (AggregationFault.notDates dateColumn).error
  | some dates => do
      if columns.isEmpty then return ⟨[], []⟩
      let numbers ← columns.mapM d.numbersOf
      return ⟨columns, .ofColumns dates numbers axis dropZero⟩

end Dataset

end Chartbook
