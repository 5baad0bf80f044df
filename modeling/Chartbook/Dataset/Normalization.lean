import Chartbook.Calendar.Reading
import Chartbook.Dataset.Basic

/-!
# Normalization

Typing the columns of a table by their classification, and the quality issues
found on the way.  Rows keep their number and order; a column that cannot be
typed keeps its cells.
-/

namespace Chartbook

inductive Issue where
  | missing (column : String) (count : Nat)
  | unreadableDates (column : String) (cause : UnreadableDates)
  deriving DecidableEq, Repr

namespace Issue

def column : Issue → String
  | missing c _ => c
  | unreadableDates c _ => c

def details : Issue → String
  | missing _ count => s!"{count} missing cells"
  | unreadableDates _ cause => s!"failed to convert dates: {cause.message}"

def kindText : Issue → String
  | missing .. => "missing"
  | unreadableDates .. => "date_parse_error"

def toJson (i : Issue) : Json := .object [
  ("col", .text i.column),
  ("issue", .text i.kindText),
  ("details", .text i.details)]

end Issue

def dtypeOf (classes : List ColumnClass) (name : String) : Dtype :=
  ((classes.reverse.find? (·.name = name)).map (·.dtype)).getD .unknown

namespace Values

/-- Cells of which every one is null or a number become numbers; others stay as
they are. -/
def ofCells (cells : List Cell) : Values :=
  if cells.all fun c => match c with
    | .null | .number _ => true
    | _ => false
  then numbers (cells.map fun c => match c with
    | .number x => if x.isNaN then none else some x
    | _ => none)
  else texts cells

def typed (dtype : Dtype) (cells : List Cell) : Values :=
  match dtype with
  | .date =>
      match readDates cells with
      | .ok v => dates v
      | .error _ => ofCells cells
  | .currency | .percent | .number => numbers (cells.map Cell.number?)
  | .string | .category | .unknown => ofCells cells

end Values

namespace Table

def typedColumn (rows : Nat) (dtype : Dtype) (c : Column) : Dataset.Column :=
  let values := Values.typed dtype (c.padded rows)
  ⟨c.name, if dtype = .unknown then values.inferred else dtype, values⟩

def dateIssue? (rows : Nat) (dtype : Dtype) (c : Column) : Option Issue :=
  if dtype = .date then
    match readDates (c.padded rows) with
    | .ok _ => none
    | .error cause => some (.unreadableDates c.name cause)
  else none

end Table

def Dataset.Column.missingIssue? (c : Dataset.Column) : Option Issue :=
  if 0 < c.values.missingCount then
    some (.missing c.name c.values.missingCount)
  else none

structure Normalized where
  dataset : Dataset
  issues : List Issue

/-- Types every column.  First come the issues of unreadable dates, then those
of missing values. -/
def Table.normalize (t : Table) (classes : List ColumnClass) : Normalized :=
  let rows := t.rowCount
  let columns := t.columns.map fun c =>
    typedColumn rows (dtypeOf classes c.name) c
  { dataset := ⟨columns, rows⟩
    issues := t.columns.filterMap
        (fun c => dateIssue? rows (dtypeOf classes c.name) c) ++
      columns.filterMap Dataset.Column.missingIssue? }

end Chartbook
