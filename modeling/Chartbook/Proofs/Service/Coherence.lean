import Chartbook.Proofs.Service.Session
import Mathlib.Logic.Relation

/-!
# Coherence of the store

All calls change the store by three kinds of writes.  A write keeps the three
collections in step with each other and keeps what was stored of tables and
datasets, so both hold over sessions of any length.  Dashboards alone are
replaced; which one stands is told by the history of the session.
-/

namespace Chartbook

namespace Store

inductive Write (s : Store) : Store → Prop
  | table {id : String} (t : Table) (hid : s.tables.get? id = none) :
      Write s (s.withTable id t)
  | entry {id nid : String} {t : Table} {classes : List ColumnClass}
      (ht : s.tables.get? id = some t)
      (hcheck : t.check classes = .ok classes)
      (hnid : s.datasets.get? nid = none) :
      Write s (s.withEntry nid (t.entry id classes))
  | dashboard {nid : String} {e : Entry} {doc : Document}
      (he : s.datasets.get? nid = some e) (hdoc : doc.datasetId = nid) :
      Write s (s.withDashboard nid doc)

abbrev Writes : Store → Store → Prop := Relation.ReflTransGen Write

/--
Every dataset can be made again from a stored table by a valid classification,
and every dashboard belongs to a stored dataset.
-/
structure Coherent (s : Store) : Prop where
  entries : ∀ nid e, s.datasets.get? nid = some e →
    ∃ t, s.tables.get? e.datasetId = some t ∧
      t.check e.columns = .ok e.columns ∧
      e.dataset = (t.normalize e.columns).dataset
  dashboards : ∀ nid doc, s.dashboards.get? nid = some doc →
    (∃ e, s.datasets.get? nid = some e) ∧ doc.datasetId = nid

structure Kept (s s' : Store) : Prop where
  tables : s.tables.Kept s'.tables
  datasets : s.datasets.Kept s'.datasets

theorem coherent_empty : ({} : Store).Coherent where
  entries := fun _ _ h => by contradiction
  dashboards := fun _ _ h => by contradiction

theorem Write.kept {s s' : Store} (hw : s.Write s') : s.Kept s' := by
  cases hw with
  | table t hid => exact ⟨Keyed.kept_insert hid t, Keyed.Kept.refl _⟩
  | entry ht hcheck hnid => exact ⟨Keyed.Kept.refl _, Keyed.kept_insert hnid _⟩
  | dashboard he hdoc => exact ⟨Keyed.Kept.refl _, Keyed.Kept.refl _⟩

theorem Write.coherent {s s' : Store} (h : s.Coherent) (hw : s.Write s') :
    s'.Coherent := by
  have hkept := hw.kept
  cases hw with
  | table t hid =>
      refine ⟨fun nid e he => ?_, h.dashboards⟩
      obtain ⟨t', ht', hrest⟩ := h.entries nid e he
      exact ⟨t', hkept.tables _ _ ht', hrest⟩
  | @entry id nid t classes ht hcheck hnid =>
      constructor
      · intro n e he
        rw [withEntry_datasets, Keyed.get?_insert] at he
        split at he
        · cases he
          exact ⟨t, ht, hcheck, rfl⟩
        · exact h.entries n e he
      · intro n doc hdoc
        obtain ⟨⟨e, he⟩, hid⟩ := h.dashboards n doc hdoc
        exact ⟨⟨e, hkept.datasets _ _ he⟩, hid⟩
  | @dashboard nid e doc he hdoc =>
      refine ⟨h.entries, fun n doc' hdoc' => ?_⟩
      rw [withDashboard_dashboards, Keyed.get?_insert] at hdoc'
      split at hdoc'
      · rename_i hn
        cases hdoc'
        exact ⟨⟨e, hn ▸ he⟩, hdoc.trans hn.symm⟩
      · exact h.dashboards n doc' hdoc'

theorem Writes.kept {s s' : Store} (hw : s.Writes s') : s.Kept s' := by
  induction hw with
  | refl => exact ⟨Keyed.Kept.refl _, Keyed.Kept.refl _⟩
  | tail _ hlast ih =>
      exact ⟨ih.tables.trans hlast.kept.tables,
        ih.datasets.trans hlast.kept.datasets⟩

theorem Writes.coherent {s s' : Store} (h : s.Coherent) (hw : s.Writes s') :
    s'.Coherent := by
  induction hw with
  | refl => exact h
  | tail _ hlast ih => exact hlast.coherent ih

/-! ## Calls -/

theorem FlowCases.writes {s : Store} {settings : Settings} {t : Table}
    {x : Circumstances} {final : FlowEnd} (h : FlowCases s settings t x final) :
    s.Writes final.store := by
  cases h with
  | noTable e _ => exact .refl
  | noColumns e hrows hid =>
      exact .single (.table t (Keyed.get?_freshId? hid))
  | noDataset e hrows hid =>
      exact .single (.table t (Keyed.get?_freshId? hid))
  | noDashboard e hrows hid hcheck hnid =>
      exact .tail (.single (.table t (Keyed.get?_freshId? hid)))
        (.entry (Keyed.get?_insert_self ..) hcheck (Keyed.get?_freshId? hnid))
  | finished hrows hid hcheck hnid hbuild =>
      exact .tail (.tail (.single (.table t (Keyed.get?_freshId? hid)))
        (.entry (Keyed.get?_insert_self ..) hcheck (Keyed.get?_freshId? hnid)))
        (.dashboard (Keyed.get?_insert_self ..) hbuild)

theorem CallCases.writes {s s' : Store} {c : Call}
    {result : Except Error Returned} (h : CallCases s c result s') :
    s.Writes s' := by
  cases h with
  | failed => exact .refl
  | ingested hid => exact .single (.table _ hid)
  | detected columns => exact .refl
  | normalized ht hcheck hnid => exact .single (.entry ht hcheck hnid)
  | suggested he hbuild => exact .single (.dashboard he hbuild)
  | found doc => exact .refl
  | pipelined hflow => exact hflow.writes

theorem perform_writes (s : Store) (c : Call) : s.Writes (s.perform c).store :=
  (s.perform_cases c).writes

private theorem after_writes (s : Store) (calls : List Call) :
    s.Writes (s.after calls) := by
  induction calls generalizing s with
  | nil => exact .refl
  | cons c rest ih => exact (s.perform_writes c).trans (ih _)

/-! ## Dashboards -/

theorem FlowCases.dashboards {s : Store} {settings : Settings} {t : Table}
    {x : Circumstances} {final : FlowEnd} (h : FlowCases s settings t x final) :
    final.store.dashboards =
      match final.result with
      | .error _ => s.dashboards
      | .ok f => s.dashboards.insert f.report.id f.build.document := by
  cases h <;> rfl

theorem CallCases.dashboards {s s' : Store} {c : Call}
    {result : Except Error Returned} (h : CallCases s c result s')
    (id : String) :
    s'.dashboards.get? id =
      (documentFor? id (c, result)).or (s.dashboards.get? id) := by
  cases h with
  | failed c e => cases c <;> rfl
  | ingested hid => rfl
  | detected columns => rfl
  | normalized ht hcheck hnid => rfl
  | suggested he hbuild =>
      simp only [withDashboard_dashboards, Keyed.get?_insert, documentFor?,
        eq_comm (a := id)]
      split <;> rfl
  | found doc => rfl
  | @pipelined settings t classifier options x final hflow =>
      rw [hflow.dashboards]
      cases final.result with
      | error failure => rfl
      | ok f =>
          simp only [FlowEnd.pipelined, Except.map, documentFor?,
            Keyed.get?_insert, eq_comm (a := id)]
          split <;> rfl

private theorem dashboards_after (s : Store) (calls : List Call) (id : String) :
    (s.after calls).dashboards.get? id =
      (lastDocument? (s.history calls) id).or (s.dashboards.get? id) := by
  induction calls generalizing s with
  | nil => rfl
  | cons c rest ih =>
      -- what the rest computes stands before what `c` computes, and that
      -- before what stood already
      have hrest := ih (s.perform c).store
      rw [(s.perform_cases c).dashboards id, ← Option.or_assoc] at hrest
      refine hrest.trans (congrArg (Option.or · (s.dashboards.get? id)) ?_)
      simp only [history, lastDocument?, List.filterMap_cons]
      cases documentFor? id (c, (s.perform c).result) with
      | none => simp
      | some doc => simp [List.getLast?_cons]

/--
After any session that starts from nothing, datasets and dashboards belong to
what is stored beside them; whatever calls follow, no stored table or dataset
changes; and the latest dashboard of a dataset is the last one that was computed
for it.
-/
theorem coherent_session (calls : List Call) :
    (({} : Store).after calls).Coherent ∧
      (∀ later, (({} : Store).after calls).Kept
        (({} : Store).after (calls ++ later))) ∧
      ∀ id, (({} : Store).after calls).latest id =
        match lastDocument? (({} : Store).history calls) id with
        | some doc => .ok doc
        | none => .error (.notFound s!"no dashboard for '{id}'") := by
  refine ⟨(after_writes _ calls).coherent coherent_empty, fun later => ?_,
    fun id => ?_⟩
  · rw [after_append]
    exact (after_writes _ later).kept
  · have hempty : ({} : Store).dashboards.get? id = none := rfl
    have hlast := dashboards_after {} calls id
    rw [hempty, Option.or_none] at hlast
    cases h : lastDocument? (({} : Store).history calls) id with
    | none =>
        rw [h] at hlast
        simp only [latest, hlast]
    | some doc =>
        rw [h] at hlast
        simp only [latest, hlast]

end Store

end Chartbook
