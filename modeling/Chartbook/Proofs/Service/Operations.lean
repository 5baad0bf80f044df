import Chartbook.Proofs.Classification
import Chartbook.Proofs.Keyed
import Chartbook.Service.Operations

/-!
# What the operations do

Each operation has one equation for the case in which it writes and one lemma
that lists all its cases.  Later proofs about the store use these and do not
open the operations again.
-/

namespace Chartbook

def Table.entry (t : Table) (id : String) (classes : List ColumnClass) :
    Entry :=
  ⟨id, (t.normalize classes).dataset, classes⟩

@[simp] theorem Table.preview_datasetId (t : Table) (id : String) (rows : Nat) :
    (t.preview id rows).datasetId = id := rfl

def Table.report (t : Table) (nid : String) (classes : List ColumnClass) :
    NormalizeReport :=
  ⟨nid, (t.normalize classes).dataset.rowCount,
    (t.normalize classes).dataset.described classes,
    (t.normalize classes).issues⟩

@[simp] theorem Table.report_id (t : Table) (nid : String)
    (classes : List ColumnClass) : (t.report nid classes).id = nid := rfl

def Build.relabelled (nid version : String) (b : Build) : Build :=
  { b with document := { b.document with datasetId := nid, version } }

theorem Dataset.dashboard_relabelled (d : Dataset) (plan : Plan) (s : Settings)
    (o : Options) (nid nid' version version' : String) :
    d.dashboard nid' plan s o version' =
      (d.dashboard nid plan s o version).map
        (Build.relabelled nid' version') := by
  simp only [dashboard]
  cases d.gatherKpis plan s with
  | error e => rfl
  | ok kpis =>
      cases d.gatherCharts plan s (o.resolve s) with
      | error e => rfl
      | ok charts => rfl

theorem Dataset.datasetId_of_dashboard {d : Dataset} {plan : Plan}
    {s : Settings} {o : Options} {nid version : String} {build : Build}
    (h : d.dashboard nid plan s o version = .ok build) :
    build.document.datasetId = nid := by
  rw [d.dashboard_relabelled plan s o "" nid "" version] at h
  obtain ⟨blank, -, rfl⟩ := map_eq_ok.mp h
  rfl

namespace Store

/-! ## Writes -/

def withTable (s : Store) (id : String) (t : Table) : Store :=
  { s with tables := s.tables.insert id t }

def withEntry (s : Store) (nid : String) (e : Entry) : Store :=
  { s with datasets := s.datasets.insert nid e }

def withDashboard (s : Store) (nid : String) (doc : Document) : Store :=
  { s with dashboards := s.dashboards.insert nid doc }

def withFlow (s : Store) (id nid : String) (t : Table)
    (columns : List ColumnClass) (doc : Document) : Store :=
  ((s.withTable id t).withEntry nid (t.entry id columns)).withDashboard nid doc

variable (s : Store) (settings : Settings)

@[simp] theorem withTable_tables (id : String) (t : Table) :
    (s.withTable id t).tables = s.tables.insert id t := rfl

@[simp] theorem withTable_datasets (id : String) (t : Table) :
    (s.withTable id t).datasets = s.datasets := rfl

@[simp] theorem withTable_dashboards (id : String) (t : Table) :
    (s.withTable id t).dashboards = s.dashboards := rfl

@[simp] theorem withEntry_tables (nid : String) (e : Entry) :
    (s.withEntry nid e).tables = s.tables := rfl

@[simp] theorem withEntry_datasets (nid : String) (e : Entry) :
    (s.withEntry nid e).datasets = s.datasets.insert nid e := rfl

@[simp] theorem withEntry_dashboards (nid : String) (e : Entry) :
    (s.withEntry nid e).dashboards = s.dashboards := rfl

@[simp] theorem withDashboard_tables (nid : String) (doc : Document) :
    (s.withDashboard nid doc).tables = s.tables := rfl

@[simp] theorem withDashboard_datasets (nid : String) (doc : Document) :
    (s.withDashboard nid doc).datasets = s.datasets := rfl

@[simp] theorem withDashboard_dashboards (nid : String) (doc : Document) :
    (s.withDashboard nid doc).dashboards = s.dashboards.insert nid doc := rfl

/-! ## Taking in a table -/

theorem ingest_empty (draws : List Tag) {t : Table} (h : t.rowCount = 0) :
    s.ingest settings draws t = ⟨.error ImportFault.empty.error, s, {}⟩ := by
  rw [ingest, if_pos h]

theorem ingest_unused {draws : List Tag} {t : Table} {id : String}
    (h : t.rowCount ≠ 0) (hid : s.tables.freshId? "ds" draws = some id) :
    s.ingest settings draws t =
      ⟨.ok (t.preview id settings.previewRows), s.withTable id t, {}⟩ := by
  rw [ingest, if_neg h, Keyed.insertNew?, hid]
  rfl

theorem ingest_cases (draws : List Tag) (t : Table) :
    (∃ e, s.ingest settings draws t = ⟨.error e, s, {}⟩) ∨
      ∃ id, t.rowCount ≠ 0 ∧ s.tables.freshId? "ds" draws = some id ∧
        s.ingest settings draws t =
          ⟨.ok (t.preview id settings.previewRows), s.withTable id t, {}⟩ := by
  by_cases h : t.rowCount = 0
  · exact .inl ⟨_, s.ingest_empty settings draws h⟩
  · cases hid : s.tables.freshId? "ds" draws with
    | none =>
        refine .inl ⟨noUnusedId, ?_⟩
        rw [ingest, if_neg h, Keyed.insertNew?, hid]
        rfl
    | some id => exact .inr ⟨id, h, rfl, s.ingest_unused settings h hid⟩

/-! ## Having columns classified -/

theorem detect_store (id : String) (classifier : Classifier) :
    (s.detect settings id classifier).store = s := by
  rw [detect]
  split <;> rfl

theorem detect_result {id : String} {t : Table}
    (ht : s.tables.get? id = some t) (classifier : Classifier) :
    (s.detect settings id classifier).result =
      classified t
        (classifier.classify (t.preview id settings.previewRows)) := by
  rw [detect, table, ht]

theorem check_of_classified {t : Table} {reply : Except Error String}
    {columns : List ColumnClass} (h : classified t reply = .ok columns) :
    t.check columns = .ok columns := by
  obtain ⟨text, -, hdecoded⟩ := bind_eq_ok.mp h
  obtain ⟨decoded, -, hcheck⟩ := bind_eq_ok.mp hdecoded
  exact t.check_check hcheck

theorem stored_of_detect_ok {id : String} {classifier : Classifier}
    {columns : List ColumnClass}
    (h : (s.detect settings id classifier).result = .ok columns) :
    ∃ t, s.tables.get? id = some t ∧ t.check columns = .ok columns := by
  cases ht : s.tables.get? id with
  | none =>
      rw [detect, table, ht] at h
      contradiction
  | some t =>
      rw [s.detect_result settings ht] at h
      exact ⟨t, rfl, check_of_classified h⟩

/-! ## Normalizing -/

theorem normalize_unused {draws : List Tag} {id nid : String} {t : Table}
    {columns classes : List ColumnClass} (ht : s.tables.get? id = some t)
    (hcheck : t.check columns = .ok classes)
    (hnid : s.datasets.freshId? "nds" draws = some nid) :
    s.normalize draws id columns =
      ⟨.ok (t.report nid classes), s.withEntry nid (t.entry id classes),
        {}⟩ := by
  simp only [normalize, table, ht, hcheck, Keyed.insertNew?, hnid]
  rfl

theorem normalize_cases (draws : List Tag) (id : String)
    (columns : List ColumnClass) :
    (∃ e, s.normalize draws id columns = ⟨.error e, s, {}⟩) ∨
      ∃ t classes nid, s.tables.get? id = some t ∧
        t.check columns = .ok classes ∧
        s.datasets.freshId? "nds" draws = some nid ∧
        s.normalize draws id columns =
          ⟨.ok (t.report nid classes), s.withEntry nid (t.entry id classes),
            {}⟩ := by
  cases ht : s.tables.get? id with
  | none =>
      refine .inl ⟨.notFound s!"dataset '{id}'", ?_⟩
      simp only [normalize, table, ht]
  | some t =>
      cases hcheck : t.check columns with
      | error e =>
          refine .inl ⟨e, ?_⟩
          simp only [normalize, table, ht, hcheck]
      | ok classes =>
          cases hnid : s.datasets.freshId? "nds" draws with
          | none =>
              refine .inl ⟨noUnusedId, ?_⟩
              simp only [normalize, table, ht, hcheck, Keyed.insertNew?, hnid]
              rfl
          | some nid =>
              exact .inr ⟨t, classes, nid, rfl, hcheck, rfl,
                s.normalize_unused ht hcheck hnid⟩

/-! ## Having a dashboard suggested -/

def shownOf (e : Entry) : Shown :=
  { profile := some (e.dataset.profile, e.columns) }

theorem suggest_ok {nid : String} {e : Entry} {classifier : Classifier}
    {options : Options} {version : String} {build : Build}
    (he : s.datasets.get? nid = some e)
    (hbuild : suggested e nid settings options version
      (classifier.suggest e.dataset.profile e.columns) = .ok build) :
    s.suggest settings nid classifier options version =
      ⟨.ok build, s.withDashboard nid build.document, shownOf e⟩ := by
  simp only [suggest, entry, he, hbuild]
  rfl

theorem suggest_error {nid : String} {e : Entry} {classifier : Classifier}
    {options : Options} {version : String} {error : Error}
    (he : s.datasets.get? nid = some e)
    (herror : suggested e nid settings options version
      (classifier.suggest e.dataset.profile e.columns) = .error error) :
    s.suggest settings nid classifier options version =
      ⟨.error error, s, shownOf e⟩ := by
  simp only [suggest, entry, he, herror]
  rfl

theorem suggest_cases (nid : String) (classifier : Classifier)
    (options : Options) (version : String) :
    (∃ e shown, s.suggest settings nid classifier options version =
        ⟨.error e, s, shown⟩) ∨
      ∃ e build, s.datasets.get? nid = some e ∧
        suggested e nid settings options version
          (classifier.suggest e.dataset.profile e.columns) = .ok build ∧
        s.suggest settings nid classifier options version =
          ⟨.ok build, s.withDashboard nid build.document, shownOf e⟩ := by
  cases he : s.datasets.get? nid with
  | none =>
      refine .inl ⟨.notFound s!"normalized dataset '{nid}'", {}, ?_⟩
      simp only [suggest, entry, he]
  | some e =>
      cases hbuild : suggested e nid settings options version
          (classifier.suggest e.dataset.profile e.columns) with
      | error error =>
          exact .inl ⟨error, shownOf e, s.suggest_error settings he hbuild⟩
      | ok build =>
          exact .inr ⟨e, build, rfl, hbuild, s.suggest_ok settings he hbuild⟩

theorem suggested_relabelled (e e' : Entry) (hdataset : e'.dataset = e.dataset)
    (nid nid' : String) (options : Options) (version version' : String)
    (reply : Except Error String) :
    suggested e' nid' settings options version' reply =
      (suggested e nid settings options version reply).map
        (Build.relabelled nid' version') := by
  cases reply with
  | error error => rfl
  | ok text =>
      cases hplan : Reply.plan text with
      | error error => simp [suggested, hplan, bind, Except.bind, Except.map]
      | ok plan =>
          simpa [suggested, hplan, hdataset, bind, Except.bind] using
            e.dataset.dashboard_relabelled plan settings options nid nid'
              version version'

theorem datasetId_of_suggested {e : Entry} {nid : String} {options : Options}
    {version : String} {reply : Except Error String} {build : Build}
    (h : suggested e nid settings options version reply = .ok build) :
    build.document.datasetId = nid := by
  obtain ⟨text, -, hplanned⟩ := bind_eq_ok.mp h
  obtain ⟨plan, -, hdashboard⟩ := bind_eq_ok.mp hplanned
  exact Dataset.datasetId_of_dashboard hdashboard

end Store

end Chartbook
