import Chartbook.Proofs.Json.Members
import Chartbook.Proofs.Service.Flow

/-!
# The pipeline and the flow

The pipeline and the flow may draw different identifiers and be run at different
times.  With a classifier that gives the same replies to both, they agree on
everything else: both succeed or both fail by the same error, the documents
differ in their labels, and the stores differ in their new keys.
-/

namespace Chartbook

@[simp] theorem Classifier.fixed_classify (columns plan : Except Error String)
    (p : Preview) : (Classifier.fixed columns plan).classify p = columns := rfl

@[simp] theorem Classifier.fixed_suggest (columns plan : Except Error String)
    (p : Profile) (classes : List ColumnClass) :
    (Classifier.fixed columns plan).suggest p classes = plan := rfl

/-- Every report, whatever the stage found, is written with ascending keys. -/
theorem StageReport.isAscending_toJson (r : StageReport) :
    r.toJson.IsAscending := by
  cases r with
  | uploaded id rows =>
      have hkeys : ["dataset_id", "rows"].Pairwise (· ≤ ·) := by decide
      refine .object hkeys ?_
      simp only [List.forall_mem_cons]
      exact ⟨.scalar rfl, .scalar rfl, List.forall_mem_nil _⟩
  | classified columns =>
      have hkeys : ["columns"].Pairwise (· ≤ ·) := by decide
      refine .object hkeys ?_
      rw [List.forall_mem_singleton]
      exact Json.isAscending_array_map _ columns
  | normalized report =>
      have hkeys : ["normalized_dataset_id", "quality", "rows"].Pairwise
          (· ≤ ·) := by decide
      refine .object hkeys ?_
      simp only [List.forall_mem_cons]
      exact ⟨.scalar rfl, Json.isAscending_array_map _ report.issues,
        .scalar rfl, List.forall_mem_nil _⟩
  | suggested build =>
      have hkeys : ["charts", "failures", "insights", "kpis"].Pairwise
          (· ≤ ·) := by decide
      refine .object hkeys ?_
      simp only [List.forall_mem_cons]
      exact ⟨.scalar rfl, Json.isAscending_array_map _ build.failures,
        .scalar rfl, .scalar rfl, List.forall_mem_nil _⟩

def Flow.metas (f : Flow) (id nid : String) (t : Table) :
    List (String × Json) :=
  [("upload", .object [
      ("dataset_id", .text id),
      ("rows", .natural t.rowCount)]),
   ("detect_ai", .object [
      ("columns", .array (f.columns.map (·.toJson.ascending)))]),
   ("normalize", .object [
      ("normalized_dataset_id", .text nid),
      ("quality", .array (f.report.issues.map (·.toJson.ascending))),
      ("rows", .natural f.report.rows)]),
   ("suggest_ai", .object [
      ("charts", .natural f.build.document.charts.length),
      ("failures", .array (f.build.failures.map (·.toJson.ascending))),
      ("insights", .natural f.build.document.insights.length),
      ("kpis", .natural f.build.document.kpis.length)])]

namespace Store

structure Supplies (s : Store) (x : Circumstances) : Prop where
  tables : s.tables.Supplied "ds" x.tableDraws
  datasets : s.datasets.Supplied "nds" x.datasetDraws

private theorem normalize_ok_of_detect_ok {s : Store} {settings : Settings}
    {id : String} {classifier : Classifier} {columns : List ColumnClass}
    {draws : List Tag}
    (hdetect : (s.detect settings id classifier).result = .ok columns)
    (hdraws : s.datasets.Supplied "nds" draws) :
    ∃ report, (s.normalize draws id columns).result = .ok report := by
  obtain ⟨t, ht, hcheck⟩ := s.stored_of_detect_ok settings hdetect
  obtain ⟨nid, hnid⟩ := Keyed.exists_freshId? hdraws
  exact ⟨t.report nid columns, by rw [s.normalize_unused ht hcheck hnid]⟩

/--
The pipeline does what its four steps do one after the other.  It ends with the
error of the first step that fails, or with the document, the store and the
reports of the steps, up to the identifiers drawn and the time of the run.  The
columns of a detection always pass the check of the normalization.
-/
theorem runPipeline_refines_flow (s : Store) (settings : Settings) (t : Table)
    (columnsReply planReply : Except Error String) (options : Options)
    (x y : Circumstances) (hx : s.Supplies x) (hy : s.Supplies y) :
    let classifier := Classifier.fixed columnsReply planReply
    let run := s.runPipeline settings t classifier options x
    let steps := s.flow settings t classifier options y
    (match steps.result with
      | .error (step, e) => run.result = .error e ∧ step ≠ .normalize
      | .ok f =>
          ∃ r, run.result = .ok r ∧
            r.document = { f.build.document with
              datasetId := r.normalizedId, version := x.version } ∧
            run.store =
              s.withFlow r.datasetId r.normalizedId t f.columns r.document ∧
            steps.store =
              s.withFlow f.preview.datasetId f.report.id t f.columns
                f.build.document ∧
            s.tables.get? r.datasetId = none ∧
            s.datasets.get? r.normalizedId = none ∧
            (x.tableDraws = y.tableDraws →
              r.datasetId = f.preview.datasetId) ∧
            (x.datasetDraws = y.datasetDraws →
              r.normalizedId = f.report.id) ∧
            r.stages.map
                (fun stage => (stage.report.stageName, stage.report.toJson)) =
              f.metas r.datasetId r.normalizedId t) ∧
      ∀ (s' : Store) (settings' : Settings) (id : String)
        (classifier' : Classifier) (columns : List ColumnClass)
        (draws : List Tag),
        (s'.detect settings' id classifier').result = .ok columns →
          s'.datasets.Supplied "nds" draws →
          ∃ report, (s'.normalize draws id columns).result = .ok report := by
  intro classifier run steps
  refine ⟨?_, fun s' settings' id classifier' columns draws =>
    normalize_ok_of_detect_ok⟩
  obtain ⟨hstore, hresult⟩ :=
    s.runPipeline_flow settings t classifier options x
  by_cases hrows : t.rowCount = 0
  · simp only [flow, s.ingest_empty settings _ hrows] at hresult
    simp only [steps, flow, s.ingest_empty settings _ hrows]
    exact ⟨hresult, by decide⟩
  · obtain ⟨id, hid⟩ := Keyed.exists_freshId? hx.tables
    obtain ⟨nid, hnid⟩ := Keyed.exists_freshId? hx.datasets
    obtain ⟨id', hid'⟩ := Keyed.exists_freshId? hy.tables
    obtain ⟨nid', hnid'⟩ := Keyed.exists_freshId? hy.datasets
    rw [s.flow_unused settings t classifier options x hrows hid hnid]
      at hstore hresult
    have hsteps :=
      s.flow_unused settings t classifier options y hrows hid' hnid'
    simp only [classifier, Classifier.fixed_classify, Classifier.fixed_suggest]
      at hstore hresult hsteps
    cases hcolumns : classified t columnsReply with
    | error e =>
        rw [hcolumns] at hresult hsteps
        simp only [steps, classifier, hsteps]
        exact ⟨hresult, by decide⟩
    | ok columns =>
        have hrelabelled := suggested_relabelled settings
          (t.entry id' columns) (t.entry id columns) rfl nid' nid options
          y.version x.version planReply
        simp only [hcolumns, hrelabelled] at hstore hresult hsteps
        cases hbuild : suggested (t.entry id' columns) nid' settings options
            y.version planReply with
        | error e =>
            rw [hbuild] at hresult hsteps
            simp only [steps, classifier, hsteps]
            exact ⟨hresult, by decide⟩
        | ok build =>
            rw [hbuild] at hstore hresult hsteps
            simp only [steps, classifier, hsteps]
            refine ⟨_, hresult, rfl, hstore, rfl, Keyed.get?_freshId? hid,
              Keyed.get?_freshId? hnid, fun h => ?_, fun h => ?_, rfl⟩
            · rw [h, hid'] at hid
              exact (Option.some.inj hid).symm
            · rw [h, hnid'] at hnid
              exact (Option.some.inj hnid).symm

private theorem supplies_drawing (tag : Tag) :
    ({} : Store).Supplies (.drawing tag) :=
  ⟨⟨tag, List.mem_singleton.mpr rfl, rfl⟩,
    ⟨tag, List.mem_singleton.mpr rfl, rfl⟩⟩

theorem runPipeline_refines_flow_oneCell :
    ∃ f r,
      (({} : Store).flow { policy := .skipFailed } oneCell refusedKpi {}
          (.drawing 1)).result = .ok f ∧
        (({} : Store).runPipeline { policy := .skipFailed } oneCell
          refusedKpi {} (.drawing 0)).result = .ok r ∧
        f.build.failures.length = 1 ∧
        r.datasetId = "ds_000000" ∧ f.preview.datasetId = "ds_000001" ∧
        r.document = { f.build.document with
          datasetId := r.normalizedId, version := "" } := by
  obtain ⟨f, hf⟩ : ∃ f, (({} : Store).flow { policy := .skipFailed } oneCell
      refusedKpi {} (.drawing 1)).result = .ok f := ⟨_, rfl⟩
  obtain ⟨hrefines, -⟩ := runPipeline_refines_flow {} { policy := .skipFailed }
    oneCell _ _ {} _ _ (supplies_drawing 0) (supplies_drawing 1)
  simp only [refusedKpi] at hf
  rw [hf] at hrefines
  obtain ⟨r, hr, hdocument, -⟩ := hrefines
  cases hf
  cases hr
  exact ⟨_, _, rfl, rfl, rfl, rfl, rfl, hdocument⟩

end Store

end Chartbook
