import Chartbook.Proofs.Service.Operations
import Chartbook.Service.Pipeline

/-!
# The flow from a table to its dashboard

The flow makes the four operations one after the other, as separate calls, and
hands on what each gives back.  It is what the pipeline is measured by.  The
pipeline has the end of the flow, and an end is one of five kinds: each of the
steps may fail, or all succeed.
-/

namespace Chartbook

inductive FlowStep where
  | ingest
  | detect
  | normalize
  | suggest
  deriving DecidableEq, Repr

structure Flow where
  preview : Preview
  columns : List ColumnClass
  report : NormalizeReport
  build : Build

/-- What a flow came to: all results, or the first failing step and its
error. -/
structure FlowEnd where
  result : Except (FlowStep × Error) Flow
  store : Store

namespace Store

def flow (s : Store) (settings : Settings) (t : Table) (classifier : Classifier)
    (options : Options) (x : Circumstances) : FlowEnd :=
  let ingested := s.ingest settings x.tableDraws t
  match ingested.result with
  | .error e => ⟨.error (.ingest, e), ingested.store⟩
  | .ok preview =>
      let detected :=
        ingested.store.detect settings preview.datasetId classifier
      match detected.result with
      | .error e => ⟨.error (.detect, e), detected.store⟩
      | .ok columns =>
          let normalized := detected.store.normalize x.datasetDraws
            preview.datasetId columns
          match normalized.result with
          | .error e => ⟨.error (.normalize, e), normalized.store⟩
          | .ok report =>
              let suggested := normalized.store.suggest settings report.id
                classifier options x.version
              match suggested.result with
              | .error e => ⟨.error (.suggest, e), suggested.store⟩
              | .ok build =>
                  ⟨.ok ⟨preview, columns, report, build⟩, suggested.store⟩

end Store

def Flow.stages (f : Flow) (t : Table) (x : Circumstances) : List Stage :=
  [x.stage 0 (.uploaded f.preview.datasetId t.rowCount),
   x.stage 1 (.classified f.columns),
   x.stage 2 (.normalized f.report),
   x.stage 3 (.suggested f.build)]

def FlowEnd.pipelined (t : Table) (x : Circumstances) :
    Except (FlowStep × Error) Flow → Except Error PipelineResult
  | .error (_, e) => .error e
  | .ok f =>
      .ok ⟨f.preview.datasetId, f.report.id, f.build.document, f.stages t x⟩

namespace Store

variable (s : Store) (settings : Settings) (t : Table) (classifier : Classifier)
  (options : Options) (x : Circumstances)

theorem runPipeline_flow :
    (s.runPipeline settings t classifier options x).store =
        (s.flow settings t classifier options x).store ∧
      (s.runPipeline settings t classifier options x).result =
        FlowEnd.pipelined t x
          (s.flow settings t classifier options x).result := by
  simp only [runPipeline, flow]
  obtain ⟨_ | preview, s₁, _⟩ := s.ingest settings x.tableDraws t
  · exact ⟨rfl, rfl⟩
  · dsimp only
    obtain ⟨_ | columns, s₂, _⟩ :=
      s₁.detect settings preview.datasetId classifier
    · exact ⟨rfl, rfl⟩
    · dsimp only
      obtain ⟨_ | report, s₃, _⟩ :=
        s₂.normalize x.datasetDraws preview.datasetId columns
      · exact ⟨rfl, rfl⟩
      · dsimp only
        obtain ⟨_ | build, s₄, _⟩ :=
          s₃.suggest settings report.id classifier options x.version
        · exact ⟨rfl, rfl⟩
        · exact ⟨rfl, rfl⟩

/-- The kinds of ends that a flow has, each with the writes made before it. -/
inductive FlowCases : FlowEnd → Prop
  | noTable (e : Error)
      (h : t.rowCount = 0 ∨ s.tables.freshId? "ds" x.tableDraws = none) :
      FlowCases ⟨.error (.ingest, e), s⟩
  | noColumns {id : String} (e : Error) (hrows : t.rowCount ≠ 0)
      (hid : s.tables.freshId? "ds" x.tableDraws = some id) :
      FlowCases ⟨.error (.detect, e), s.withTable id t⟩
  | noDataset {id : String} (e : Error) (hrows : t.rowCount ≠ 0)
      (hid : s.tables.freshId? "ds" x.tableDraws = some id) :
      FlowCases ⟨.error (.normalize, e), s.withTable id t⟩
  | noDashboard {id nid : String} {columns : List ColumnClass} (e : Error)
      (hrows : t.rowCount ≠ 0)
      (hid : s.tables.freshId? "ds" x.tableDraws = some id)
      (hcheck : t.check columns = .ok columns)
      (hnid : s.datasets.freshId? "nds" x.datasetDraws = some nid) :
      FlowCases ⟨.error (.suggest, e),
        (s.withTable id t).withEntry nid (t.entry id columns)⟩
  | finished {id nid : String} {columns : List ColumnClass} {build : Build}
      (hrows : t.rowCount ≠ 0)
      (hid : s.tables.freshId? "ds" x.tableDraws = some id)
      (hcheck : t.check columns = .ok columns)
      (hnid : s.datasets.freshId? "nds" x.datasetDraws = some nid)
      (hbuild : build.document.datasetId = nid) :
      FlowCases
        ⟨.ok ⟨t.preview id settings.previewRows, columns,
            t.report nid columns, build⟩,
          s.withFlow id nid t columns build.document⟩

theorem flow_unused {id nid : String} (hrows : t.rowCount ≠ 0)
    (hid : s.tables.freshId? "ds" x.tableDraws = some id)
    (hnid : s.datasets.freshId? "nds" x.datasetDraws = some nid) :
    s.flow settings t classifier options x =
      match classified t
        (classifier.classify (t.preview id settings.previewRows)) with
      | .error e => ⟨.error (.detect, e), s.withTable id t⟩
      | .ok columns =>
          match suggested (t.entry id columns) nid settings options x.version
            (classifier.suggest (t.entry id columns).dataset.profile
              columns) with
          | .error e =>
              ⟨.error (.suggest, e),
                (s.withTable id t).withEntry nid (t.entry id columns)⟩
          | .ok build =>
              ⟨.ok ⟨t.preview id settings.previewRows, columns,
                  t.report nid columns, build⟩,
                s.withFlow id nid t columns build.document⟩ := by
  have hstored : (s.withTable id t).tables.get? id = some t := by simp
  simp only [flow, s.ingest_unused settings hrows hid, detect_store,
    Table.preview_datasetId, detect_result _ settings hstored]
  cases hcolumns : classified t
      (classifier.classify (t.preview id settings.previewRows)) with
  | error e => rfl
  | ok columns =>
      have hentry : ((s.withTable id t).withEntry nid
          (t.entry id columns)).datasets.get? nid =
            some (t.entry id columns) := by simp
      simp only [normalize_unused _ hstored (check_of_classified hcolumns) hnid,
        Table.report_id]
      cases hbuild : suggested (t.entry id columns) nid settings options
          x.version (classifier.suggest (t.entry id columns).dataset.profile
            columns) with
      | error e => rw [suggest_error _ settings hentry hbuild]
      | ok build =>
          rw [suggest_ok _ settings hentry hbuild]
          rfl

private theorem flowCases_of_no_dataset_id {id : String}
    (hrows : t.rowCount ≠ 0)
    (hid : s.tables.freshId? "ds" x.tableDraws = some id)
    (hnid : s.datasets.freshId? "nds" x.datasetDraws = none) :
    FlowCases s settings t x (s.flow settings t classifier options x) := by
  have hstored : (s.withTable id t).tables.get? id = some t := by simp
  simp only [flow, s.ingest_unused settings hrows hid, detect_store,
    Table.preview_datasetId, detect_result _ settings hstored]
  cases hcolumns : classified t
      (classifier.classify (t.preview id settings.previewRows)) with
  | error e => exact .noColumns e hrows hid
  | ok columns =>
      rcases (s.withTable id t).normalize_cases x.datasetDraws id columns with
        ⟨e, hnormalize⟩ | ⟨_, _, nid, -, -, hnid', -⟩
      · simp only [hnormalize]
        exact .noDataset e hrows hid
      · rw [withTable_datasets, hnid] at hnid'
        contradiction

theorem flow_cases :
    FlowCases s settings t x (s.flow settings t classifier options x) := by
  by_cases hrows : t.rowCount = 0
  · simp only [flow, s.ingest_empty settings x.tableDraws hrows]
    exact .noTable _ (.inl hrows)
  · cases hid : s.tables.freshId? "ds" x.tableDraws with
    | none =>
        rcases s.ingest_cases settings x.tableDraws t with
          ⟨e, hingest⟩ | ⟨id, -, hid', -⟩
        · simp only [flow, hingest]
          exact .noTable e (.inr hid)
        · rw [hid] at hid'
          contradiction
    | some id =>
        cases hnid : s.datasets.freshId? "nds" x.datasetDraws with
        | none =>
            exact s.flowCases_of_no_dataset_id settings t classifier options x
              hrows hid hnid
        | some nid =>
            rw [s.flow_unused settings t classifier options x hrows hid hnid]
            split
            · exact .noColumns _ hrows hid
            · rename_i columns hcolumns
              have hcheck := check_of_classified hcolumns
              split
              · exact .noDashboard _ hrows hid hcheck hnid
              · rename_i build hbuild
                exact .finished hrows hid hcheck hnid
                  (datasetId_of_suggested settings hbuild)

end Store

/-! ## A small flow -/

def oneCell : Table := ⟨[⟨"a", [.text "x"]⟩]⟩

def refusedKpi : Classifier :=
  .fixed (.ok "\x7b\"columns\":[]\x7d")
    (.ok ("\x7b\"kpis\":[\x7b\"name\":\"k\",\"value_expr\":\"eval(a)\"\x7d]," ++
      "\"charts\":[],\"insights\":[]\x7d"))

def Circumstances.drawing (tag : Tag) : Circumstances :=
  ⟨[tag], [tag], fun _ => "", ""⟩

end Chartbook
