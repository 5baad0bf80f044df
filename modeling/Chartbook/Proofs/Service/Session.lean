import Chartbook.Proofs.Service.Flow

/-!
# Sessions

A session is a list of calls that are made on one store, one after the other.
Services with different settings may share the store, so each call comes with
the settings it is made under, besides its draws, replies and clock.  All that a
call can do is listed once, in `CallCases`.
-/

namespace Chartbook

inductive Call where
  | ingest (settings : Settings) (draws : List Tag) (table : Table)
  | detect (settings : Settings) (id : String) (classifier : Classifier)
  | normalize (draws : List Tag) (id : String)
      (columns : Option (List ColumnClass))
  | suggest (settings : Settings) (id : String) (classifier : Classifier)
      (options : Options) (version : String)
  | latest (id : String)
  | runPipeline (settings : Settings) (table : Table) (classifier : Classifier)
      (options : Options) (x : Circumstances)

def Call.isPipeline : Call → Bool
  | .runPipeline .. => true
  | _ => false

inductive Returned where
  | preview (preview : Preview)
  | columns (columns : List ColumnClass)
  | report (report : NormalizeReport)
  | build (build : Build)
  | document (document : Document)
  | pipeline (result : PipelineResult)

def Answer.map {α β : Type} (f : α → β) (a : Answer α) : Answer β :=
  ⟨a.result.map f, a.store, a.shown⟩

namespace Store

def perform (s : Store) : Call → Answer Returned
  | .ingest settings draws t => (s.ingest settings draws t).map .preview
  | .detect settings id classifier =>
      (s.detect settings id classifier).map .columns
  | .normalize draws id columns =>
      (s.normalize draws id (columns.getD [])).map .report
  | .suggest settings id classifier options version =>
      (s.suggest settings id classifier options version).map .build
  | .latest id => ⟨(s.latest id).map .document, s, {}⟩
  | .runPipeline settings t classifier options x =>
      (s.runPipeline settings t classifier options x).map .pipeline

def after (s : Store) (calls : List Call) : Store :=
  calls.foldl (fun s c => (s.perform c).store) s

def history (s : Store) : List Call → List (Call × Except Error Returned)
  | [] => []
  | c :: rest => (c, (s.perform c).result) :: (s.perform c).store.history rest

theorem after_append (s : Store) (calls later : List Call) :
    s.after (calls ++ later) = (s.after calls).after later :=
  List.foldl_append

/-! ## All that a call can do -/

inductive CallCases (s : Store) : Call → Except Error Returned → Store → Prop
  | failed (c : Call) (e : Error) : CallCases s c (.error e) s
  | ingested {settings : Settings} {draws : List Tag} {t : Table} {id : String}
      (hid : s.tables.get? id = none) :
      CallCases s (.ingest settings draws t)
        (.ok (.preview (t.preview id settings.previewRows))) (s.withTable id t)
  | detected {settings : Settings} {id : String} {classifier : Classifier}
      (columns : List ColumnClass) :
      CallCases s (.detect settings id classifier) (.ok (.columns columns)) s
  | normalized {draws : List Tag} {id nid : String} {t : Table}
      {columns : Option (List ColumnClass)} {classes : List ColumnClass}
      (ht : s.tables.get? id = some t)
      (hcheck : t.check classes = .ok classes)
      (hnid : s.datasets.get? nid = none) :
      CallCases s (.normalize draws id columns)
        (.ok (.report (t.report nid classes)))
        (s.withEntry nid (t.entry id classes))
  | suggested {settings : Settings} {nid : String} {classifier : Classifier}
      {options : Options} {version : String} {e : Entry} {build : Build}
      (he : s.datasets.get? nid = some e)
      (hbuild : build.document.datasetId = nid) :
      CallCases s (.suggest settings nid classifier options version)
        (.ok (.build build)) (s.withDashboard nid build.document)
  | found {id : String} (doc : Document) :
      CallCases s (.latest id) (.ok (.document doc)) s
  | pipelined {settings : Settings} {t : Table} {classifier : Classifier}
      {options : Options} {x : Circumstances} {final : FlowEnd}
      (h : FlowCases s settings t x final) :
      CallCases s (.runPipeline settings t classifier options x)
        ((FlowEnd.pipelined t x final.result).map .pipeline) final.store

theorem perform_cases (s : Store) (c : Call) :
    CallCases s c (s.perform c).result (s.perform c).store := by
  cases c with
  | ingest settings draws t =>
      rcases s.ingest_cases settings draws t with ⟨e, h⟩ | ⟨id, -, hid, h⟩
      · simp only [perform, Answer.map, h]
        exact .failed _ e
      · simp only [perform, Answer.map, h]
        exact .ingested (Keyed.get?_freshId? hid)
  | detect settings id classifier =>
      simp only [perform, Answer.map, detect_store]
      cases (s.detect settings id classifier).result with
      | error e => exact .failed _ e
      | ok columns => exact .detected columns
  | normalize draws id columns =>
      rcases s.normalize_cases draws id (columns.getD []) with
        ⟨e, h⟩ | ⟨t, classes, nid, ht, hcheck, hnid, h⟩
      · simp only [perform, Answer.map, h]
        exact .failed _ e
      · simp only [perform, Answer.map, h]
        exact .normalized ht (t.check_check hcheck) (Keyed.get?_freshId? hnid)
  | suggest settings nid classifier options version =>
      rcases s.suggest_cases settings nid classifier options version with
        ⟨e, shown, h⟩ | ⟨e, build, he, hbuild, h⟩
      · simp only [perform, Answer.map, h]
        exact .failed _ e
      · simp only [perform, Answer.map, h]
        exact .suggested he (datasetId_of_suggested settings hbuild)
  | latest id =>
      simp only [perform]
      cases s.latest id with
      | error e => exact .failed _ e
      | ok doc => exact .found doc
  | runPipeline settings t classifier options x =>
      obtain ⟨hstore, hresult⟩ :=
        s.runPipeline_flow settings t classifier options x
      simp only [perform, Answer.map, hstore, hresult]
      exact .pipelined (s.flow_cases settings t classifier options x)

end Store

/-! ## The last document of a dataset -/

/--
The document that a call computed for a dataset: a suggestion for that dataset
does so, and the pipeline that made the dataset, each if it succeeds.
-/
def documentFor? (id : String) : Call × Except Error Returned → Option Document
  | (.suggest _ nid _ _ _, .ok (.build b)) =>
      if nid = id then some b.document else none
  | (.runPipeline .., .ok (.pipeline r)) =>
      if r.normalizedId = id then some r.document else none
  | _ => none

def lastDocument? (history : List (Call × Except Error Returned))
    (id : String) :
    Option Document :=
  (history.filterMap (documentFor? id)).getLast?

end Chartbook
