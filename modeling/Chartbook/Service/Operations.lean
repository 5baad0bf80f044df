import Chartbook.Dashboard.Assembly
import Chartbook.Dataset.Profile
import Chartbook.Service.Reply
import Chartbook.Service.Store
import Chartbook.Table.Import
import Chartbook.Table.Preview

/-!
# Operations of the service

Taking in a table, having its columns classified, normalizing it and having a
dashboard suggested.  An operation that fails leaves the store as it was.
-/

namespace Chartbook

/-- Whoever classifies columns and suggests plans; the replies are texts that
nobody has checked. -/
structure Classifier where
  classify : Preview → Except Error String
  suggest : Profile → List ColumnClass → Except Error String

def Classifier.fixed (columns plan : Except Error String) : Classifier where
  classify _ := columns
  suggest _ _ := plan

structure Shown where
  preview : Option Preview := none
  profile : Option (Profile × List ColumnClass) := none

structure Answer (α : Type) where
  result : Except Error α
  store : Store
  shown : Shown := {}

structure NormalizeReport where
  id : String
  rows : Nat
  columns : List ColumnClass
  issues : List Issue

def NormalizeReport.toJson (r : NormalizeReport) : Json := .object [
  ("normalized_dataset_id", .text r.id),
  ("rows", .natural r.rows),
  ("columns", .array (r.columns.map ColumnClass.toJson)),
  ("quality", .array (r.issues.map Issue.toJson))]

def Dataset.described (d : Dataset) (classes : List ColumnClass) :
    List ColumnClass :=
  d.columns.map fun c =>
    let hint := classes.reverse.find? (·.name = c.name)
    { name := c.name
      dtype := c.dtype
      semantic := hint.bind (·.semantic)
      format := hint.bind (·.format) }

namespace Store

def ingest (s : Store) (settings : Settings) (draws : List Tag) (t : Table) :
    Answer Preview :=
  if t.rowCount = 0 then ⟨.error ImportFault.empty.error, s, {}⟩
  else
    match s.tables.insertNew? "ds" draws t with
    | none => ⟨.error noUnusedId, s, {}⟩
    | some (id, tables) =>
        ⟨.ok (t.preview id settings.previewRows), { s with tables }, {}⟩

def classified (t : Table) (reply : Except Error String) :
    Except Error (List ColumnClass) := do
  t.check (← Reply.columns (← reply))

def detect (s : Store) (settings : Settings) (id : String)
    (classifier : Classifier) : Answer (List ColumnClass) :=
  match s.table id with
  | .error e => ⟨.error e, s, {}⟩
  | .ok t =>
      let preview := t.preview id settings.previewRows
      ⟨classified t (classifier.classify preview), s,
        { preview := some preview }⟩

def normalize (s : Store) (draws : List Tag) (id : String)
    (columns : List ColumnClass) : Answer NormalizeReport :=
  match s.table id with
  | .error e => ⟨.error e, s, {}⟩
  | .ok t =>
      match t.check columns with
      | .error e => ⟨.error e, s, {}⟩
      | .ok classes =>
          let normalized := t.normalize classes
          match s.datasets.insertNew? "nds" draws
            ⟨id, normalized.dataset, classes⟩ with
          | none => ⟨.error noUnusedId, s, {}⟩
          | some (newId, datasets) =>
              ⟨.ok ⟨newId, normalized.dataset.rowCount,
                normalized.dataset.described classes, normalized.issues⟩,
                { s with datasets }, {}⟩

def suggested (e : Entry) (id : String) (settings : Settings)
    (options : Options) (version : String) (reply : Except Error String) :
    Except Error Build := do
  let plan ← Reply.plan (← reply)
  e.dataset.dashboard id plan settings options version

def suggest (s : Store) (settings : Settings) (id : String)
    (classifier : Classifier) (options : Options) (version : String) :
    Answer Build :=
  match s.entry id with
  | .error e => ⟨.error e, s, {}⟩
  | .ok entry =>
      let profile := entry.dataset.profile
      let shown : Shown := { profile := some (profile, entry.columns) }
      match suggested entry id settings options version
        (classifier.suggest profile entry.columns) with
      | .error e => ⟨.error e, s, shown⟩
      | .ok build =>
          ⟨.ok build,
            { s with dashboards := s.dashboards.insert id build.document },
            shown⟩

end Store

end Chartbook
