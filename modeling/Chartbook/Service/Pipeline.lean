import Chartbook.Service.Operations

/-!
# The pipeline

All operations in a row, from a table to its dashboard, with a record of each
stage.  The first operation that fails ends the pipeline; what was stored before
it stays.
-/

namespace Chartbook

inductive StageReport where
  | uploaded (id : String) (rows : Nat)
  | classified (columns : List ColumnClass)
  | normalized (report : NormalizeReport)
  | suggested (build : Build)

namespace StageReport

def stageName : StageReport → String
  | uploaded .. => "upload"
  | classified _ => "detect_ai"
  | normalized _ => "normalize"
  | suggested _ => "suggest_ai"

/-- The report as a value in which the keys of every object ascend. -/
def toJson : StageReport → Json
  | uploaded id rows => .object [
      ("dataset_id", .text id),
      ("rows", .natural rows)]
  | classified columns => .object [
      ("columns", .array (columns.map (·.toJson.ascending)))]
  | normalized r => .object [
      ("normalized_dataset_id", .text r.id),
      ("quality", .array (r.issues.map (·.toJson.ascending))),
      ("rows", .natural r.rows)]
  | suggested b => .object [
      ("charts", .natural b.document.charts.length),
      ("failures", .array (b.failures.map (·.toJson.ascending))),
      ("insights", .natural b.document.insights.length),
      ("kpis", .natural b.document.kpis.length)]

end StageReport

structure Stage where
  start : String
  finish : String
  report : StageReport

def Stage.toJson (s : Stage) : Json := .object [
  ("name", .text s.report.stageName),
  ("start", .text s.start),
  ("end", .text s.finish),
  ("meta", s.report.toJson)]

structure PipelineResult where
  datasetId : String
  normalizedId : String
  document : Document
  stages : List Stage

def PipelineResult.toJson (r : PipelineResult) : Json := .object [
  ("dataset_id", .text r.datasetId),
  ("normalized_dataset_id", .text r.normalizedId),
  ("dashboard", r.document.toJson),
  ("stages", .array (r.stages.map Stage.toJson))]

/-- What a run takes from outside: random draws for identifiers, readings of the
clock, and today's date. -/
structure Circumstances where
  tableDraws : List Tag
  datasetDraws : List Tag
  clock : Nat → String
  version : String

def Circumstances.stage (x : Circumstances) (i : Nat) (report : StageReport) :
    Stage :=
  ⟨x.clock (2 * i), x.clock (2 * i + 1), report⟩

namespace Store

def runPipeline (s : Store) (settings : Settings) (t : Table)
    (classifier : Classifier) (options : Options) (x : Circumstances) :
    Answer PipelineResult :=
  let ingested := s.ingest settings x.tableDraws t
  match ingested.result with
  | .error e => ⟨.error e, ingested.store, {}⟩
  | .ok preview =>
      let id := preview.datasetId
      let detected := ingested.store.detect settings id classifier
      match detected.result with
      | .error e => ⟨.error e, detected.store, detected.shown⟩
      | .ok columns =>
          let normalized := detected.store.normalize x.datasetDraws id columns
          match normalized.result with
          | .error e => ⟨.error e, normalized.store, detected.shown⟩
          | .ok report =>
              let suggested := normalized.store.suggest settings report.id
                classifier options x.version
              let shown :=
                { detected.shown with profile := suggested.shown.profile }
              match suggested.result with
              | .error e => ⟨.error e, suggested.store, shown⟩
              | .ok build =>
                  ⟨.ok ⟨id, report.id, build.document,
                    [x.stage 0 (.uploaded id t.rowCount),
                     x.stage 1 (.classified columns),
                     x.stage 2 (.normalized report),
                     x.stage 3 (.suggested build)]⟩,
                    suggested.store, shown⟩

end Store

end Chartbook
