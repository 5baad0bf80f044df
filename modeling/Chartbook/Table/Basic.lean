import Chartbook.Cell

/-!
# Tables

A table as it was read: named columns of untyped cells.  Columns may have
different lengths and may share a name; a column is read as if it went on with
null cells.
-/

namespace Chartbook

structure Table.Column where
  name : String
  cells : List Cell
  deriving DecidableEq

structure Table where
  columns : List Table.Column
  deriving DecidableEq

namespace Table

def rowCount (t : Table) : Nat :=
  t.columns.foldr (fun c n => max c.cells.length n) 0

def column? (t : Table) (name : String) : Option Column :=
  t.columns.find? (·.name = name)

def columnNames (t : Table) : List String := t.columns.map (·.name)

/-- The cell in a row; below the end of a column all cells are null. -/
def Column.cell (c : Column) (row : Nat) : Cell := c.cells[row]?.getD .null

def Column.padded (c : Column) (rows : Nat) : List Cell :=
  c.cells.take rows ++ List.replicate (rows - c.cells.length) .null

end Table

end Chartbook
