import Chartbook.Classification
import Chartbook.Keyed

/-!
# Previews

What a classifier is shown of a table: the names of the columns, none of them
classified, and the first rows as text.
-/

namespace Chartbook

structure Preview where
  datasetId : String
  columns : List ColumnClass
  rows : List (Keyed String)

namespace Table

/-- A row by column name, null cells as empty text; of columns with one name the
last counts. -/
def previewRow (t : Table) (row : Nat) : Keyed String :=
  .ofList (t.columns.map fun c => (c.name, (c.cell row).text?.getD ""))

def preview (t : Table) (datasetId : String) (rows : Nat) : Preview where
  datasetId := datasetId
  columns := t.columns.map fun c => { name := c.name }
  rows := (List.range (min t.rowCount rows)).map t.previewRow

end Table

def Preview.toJson (p : Preview) : Json := .object [
  ("dataset_id", .text p.datasetId),
  ("columns", .array (p.columns.map ColumnClass.toJson)),
  ("sample_rows", .array (p.rows.map fun r =>
    .object (r.sorted.map fun (k, s) => (k, .text s))))]

end Chartbook
