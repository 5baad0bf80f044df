import Chartbook.Dashboard.Document
import Chartbook.Dataset.Normalization
import Chartbook.Service.Id

/-!
# The store

What the service keeps: tables, the datasets made from them, and the latest
dashboard of each dataset.
-/

namespace Chartbook

/-- A normalized dataset with the table it came from and the classification it
was made by. -/
structure Entry where
  datasetId : String
  dataset : Dataset
  columns : List ColumnClass

structure Store where
  tables : Keyed Table := ∅
  datasets : Keyed Entry := ∅
  dashboards : Keyed Document := ∅

namespace Store

def noUnusedId : Error := .other "no unused identifier was drawn"

def table (s : Store) (id : String) : Except Error Table :=
  match s.tables.get? id with
  | some t => .ok t
  | none => .error (.notFound s!"dataset '{id}'")

def entry (s : Store) (id : String) : Except Error Entry :=
  match s.datasets.get? id with
  | some e => .ok e
  | none => .error (.notFound s!"normalized dataset '{id}'")

def latest (s : Store) (id : String) : Except Error Document :=
  match s.dashboards.get? id with
  | some d => .ok d
  | none => .error (.notFound s!"no dashboard for '{id}'")

end Store

end Chartbook
