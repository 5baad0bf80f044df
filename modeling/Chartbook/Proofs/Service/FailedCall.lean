import Chartbook.Proofs.Service.Coherence

/-!
# Calls that fail

A single operation makes its only write when nothing can fail any more, so a
failing one leaves the store as it was.  The pipeline is four operations: when
it fails, the writes of the operations before the failing one stay.
-/

namespace Chartbook.Store

theorem CallCases.store_of_error {s s' : Store} {c : Call}
    {result : Except Error Returned} {e : Error} (h : CallCases s c result s')
    (hc : c.isPipeline = false) (he : result = .error e) : s' = s := by
  cases h with
  | failed => rfl
  | pipelined => contradiction
  | _ => cases he

private theorem flow_of_runPipeline_error (s : Store) (settings : Settings)
    (t : Table)
    (classifier : Classifier) (options : Options) (x : Circumstances)
    {e : Error}
    (he : (s.perform
      (.runPipeline settings t classifier options x)).result = .error e) :
    ∃ step, (s.flow settings t classifier options x).result =
      .error (step, e) := by
  simp only [perform, Answer.map,
    (s.runPipeline_flow settings t classifier options x).2] at he
  cases hflow : (s.flow settings t classifier options x).result with
  | ok f =>
      rw [hflow] at he
      contradiction
  | error failure =>
      rw [hflow] at he
      cases he
      exact ⟨failure.1, rfl⟩

theorem FlowCases.error {s : Store} {settings : Settings} {t : Table}
    {x : Circumstances} {final : FlowEnd} {step : FlowStep} {e : Error}
    (h : FlowCases s settings t x final)
    (he : final.result = .error (step, e)) :
    final.store.dashboards = s.dashboards ∧
      ((step = .ingest ∧ final.store.tables = s.tables ∧
          (s.tables.Supplied "ds" x.tableDraws → t.rowCount = 0)) ∨
        (step ≠ .ingest ∧ s.tables.Gains final.store.tables t ∧
          t.rowCount ≠ 0)) ∧
      ((step = .suggest ∧
          ∃ entry, s.datasets.Gains final.store.datasets entry) ∨
        (step ≠ .suggest ∧ final.store.datasets = s.datasets)) := by
  cases h with
  | noTable e hrows =>
      cases he
      refine ⟨rfl, .inl ⟨rfl, rfl, fun hdraws => ?_⟩, .inr ⟨by decide, rfl⟩⟩
      obtain ⟨id, hid⟩ := Keyed.exists_freshId? hdraws
      rw [hid] at hrows
      exact hrows.resolve_right (Option.some_ne_none id)
  | noColumns e hrows hid =>
      cases he
      exact ⟨rfl, .inr ⟨by decide, ⟨_, Keyed.get?_freshId? hid, rfl⟩, hrows⟩,
        .inr ⟨by decide, rfl⟩⟩
  | noDataset e hrows hid =>
      cases he
      exact ⟨rfl, .inr ⟨by decide, ⟨_, Keyed.get?_freshId? hid, rfl⟩, hrows⟩,
        .inr ⟨by decide, rfl⟩⟩
  | noDashboard e hrows hid hcheck hnid =>
      cases he
      exact ⟨rfl, .inr ⟨by decide, ⟨_, Keyed.get?_freshId? hid, rfl⟩, hrows⟩,
        .inl ⟨rfl, _, _, Keyed.get?_freshId? hnid, rfl⟩⟩
  | finished => contradiction

/--
A failing operation changes nothing, and classifying and looking up change
nothing at all.  A failing pipeline keeps what was stored, and has added the
table if it has rows, and a dataset if and only if the suggestion failed.
-/
theorem failed_calls_keep_store (s : Store) :
    (∀ c e, c.isPipeline = false → (s.perform c).result = .error e →
        (s.perform c).store = s) ∧
      (∀ settings id classifier,
        (s.perform (.detect settings id classifier)).store = s) ∧
      (∀ id, (s.perform (.latest id)).store = s) ∧
      ∀ settings t classifier options x e,
        let answer :=
          s.perform (.runPipeline settings t classifier options x)
        answer.result = .error e →
          s.Kept answer.store ∧
          answer.store.dashboards = s.dashboards ∧
          (answer.store.tables = s.tables ∨
            s.tables.Gains answer.store.tables t) ∧
          (s.tables.Supplied "ds" x.tableDraws →
            (s.tables.Gains answer.store.tables t ↔ t.rowCount ≠ 0)) ∧
          ∃ step,
            (s.flow settings t classifier options x).result =
                .error (step, e) ∧
              (answer.store.datasets = s.datasets ∨
                ∃ entry, s.datasets.Gains answer.store.datasets entry) ∧
              ((∃ entry, s.datasets.Gains answer.store.datasets entry) ↔
                step = .suggest) := by
  refine ⟨fun c e hc he => (s.perform_cases c).store_of_error hc he,
    fun settings id classifier => ?_, fun id => rfl, ?_⟩
  · exact s.detect_store settings id classifier
  · intro settings t classifier options x e answer he
    have hkept : s.Kept answer.store := (s.perform_writes _).kept
    have hstore : answer.store =
        (s.flow settings t classifier options x).store :=
      (s.runPipeline_flow settings t classifier options x).1
    obtain ⟨step, hstep⟩ :=
      s.flow_of_runPipeline_error settings t classifier options x he
    obtain ⟨hdashboards, htables, hdatasets⟩ :=
      (s.flow_cases settings t classifier options x).error hstep
    rw [hstore] at hkept ⊢
    refine ⟨hkept, hdashboards, ?_, fun hdraws => ?_, step, hstep, ?_, ?_⟩
    · rcases htables with ⟨-, h, -⟩ | ⟨-, h, -⟩
      · exact .inl h
      · exact .inr h
    · rcases htables with ⟨-, h, hempty⟩ | ⟨-, h, hrows⟩
      · rw [h]
        exact iff_of_false (Keyed.not_gains_self _ _)
          (not_not_intro (hempty hdraws))
      · exact iff_of_true h hrows
    · rcases hdatasets with ⟨-, h⟩ | ⟨-, h⟩
      · exact .inr h
      · exact .inl h
    · rcases hdatasets with ⟨hsuggest, h⟩ | ⟨hother, h⟩
      · exact iff_of_true h hsuggest
      · rw [h]
        exact iff_of_false (fun ⟨_, hgains⟩ => Keyed.not_gains_self _ _ hgains)
          hother

theorem failed_calls_keep_store_oneCell :
    let s := ({} : Store).after [.runPipeline { policy := .skipFailed } oneCell
      refusedKpi {} (.drawing 0)]
    (s.perform (.suggest {} "nds_000000" refusedKpi {} "")).store = s ∧
      (s.latest "nds_000000").isOk = true ∧
      ∃ entry, s.datasets.Gains (s.perform (.runPipeline {} oneCell
        refusedKpi {} (.drawing 1))).store.datasets entry := by
  intro s
  obtain ⟨hsingle, -, -, hpipeline⟩ := failed_calls_keep_store s
  obtain ⟨-, -, -, -, step, hstep, -, hdataset⟩ := hpipeline {} oneCell
    refusedKpi {} (.drawing 1) (.kpi "k" (.notAllowed "eval" "eval(a)")) rfl
  have hflow : (s.flow {} oneCell refusedKpi {} (.drawing 1)).result =
      .error (.suggest, .kpi "k" (.notAllowed "eval" "eval(a)")) := rfl
  rw [hflow] at hstep
  cases hstep
  exact ⟨hsingle _ (.kpi "k" (.notAllowed "eval" "eval(a)")) rfl rfl, rfl,
    hdataset.mpr rfl⟩

end Chartbook.Store
