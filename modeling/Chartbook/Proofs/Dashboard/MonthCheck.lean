import Chartbook.Proofs.Chart.Outcomes
import Chartbook.Proofs.Dashboard.Policies
import Chartbook.Proofs.Dataset.Series

/-!
# The check of the months

The sums that accompany a dashboard are those of all columns that its charts
name, with the months of zeros.  Whatever else is summed there, each row behind
a chart over time on the date axis is found in them with its own values.
-/

namespace Chartbook

/-! ## Charts of a document -/

private theorem gather_eq_ok {α β : Type} {policy : FailurePolicy}
    {kind : ItemKind} {name : α → String} {run : α → Except Error (Option β)}
    {items : List α} {results : List β × List ItemFailure}
    (h : gather policy kind name run items = .ok results) :
    results.1 = itemResults run items := by
  cases policy with
  | skipFailed =>
      rw [gather_skipFailed, Except.ok.injEq] at h
      rw [← h]
  | strict =>
      rw [gather_strict] at h
      split at h
      · rw [← Except.ok.inj h]
      · contradiction

namespace Dataset

variable {d : Dataset} {id : String} {plan : Plan} {s : Settings} {o : Options}
  {version : String} {build : Build}

theorem mem_charts_of_dashboard
    (h : d.dashboard id plan s o version = .ok build) {p : ChartPlan}
    (hp : p ∈ plan.charts.take s.maxCharts) {chart : Chart}
    (hchart : p.chart? d (o.resolve s) = .ok (some chart)) :
    chart ∈ build.document.charts := by
  unfold dashboard at h
  obtain ⟨kpis, -, h⟩ := bind_eq_ok.mp h
  obtain ⟨charts, hcharts, h⟩ := bind_eq_ok.mp h
  cases h
  have hresults := gather_eq_ok hcharts
  simp only [hresults, itemResults, List.mem_filterMap]
  exact ⟨p, hp, by simp [hchart, Except.toOption]⟩

theorem dashboardCheck?_of_dashboard
    (h : d.dashboard id plan s o version = .ok build) :
    d.dashboardCheck? plan s o = d.monthCheck? plan.charts (o.resolve s) := by
  unfold dashboard at h
  obtain ⟨kpis, hkpis, -⟩ := bind_eq_ok.mp h
  rw [dashboardCheck?, hkpis]

/-! ## The columns of the check -/

theorem mem_addDistinct {names : List String} {n name : String} :
    name ∈ addDistinct names n ↔ name ∈ names ∨ name = n := by
  unfold addDistinct
  split
  · rename_i hn
    exact ⟨.inl, fun h => h.elim id fun heq => heq ▸ hn⟩
  · simp

theorem mem_foldl_addDistinct {names added : List String} {name : String} :
    name ∈ added.foldl addDistinct names ↔ name ∈ names ∨ name ∈ added := by
  induction added generalizing names with
  | nil => simp
  | cons n added ih => simp [ih, mem_addDistinct, or_assoc]

theorem mem_checkedColumns_of_mem {charts : List ChartPlan} {p : ChartPlan}
    (hp : p ∈ charts) {name : String} (hname : name ∈ p.drawnKeys d)
    (dateColumn : String) : name ∈ d.checkedColumns charts dateColumn := by
  have hnamed : name ∈ ((charts.flatMap ChartPlan.valueColumns).filter
      d.contains).foldl addDistinct [] := by
    obtain ⟨series, hseries, rfl⟩ := List.mem_map.mp hname
    obtain ⟨hmem, hcontains⟩ := List.mem_filter.mp hseries
    simp only [mem_foldl_addDistinct, List.mem_filter, List.mem_flatMap,
      List.not_mem_nil, false_or]
    refine ⟨⟨p, hp, ?_⟩, hcontains⟩
    simp only [ChartPlan.valueColumns, List.mem_append, List.mem_map]
    exact .inl (.inl ⟨series, hmem, rfl⟩)
  have hne := List.ne_nil_of_mem hnamed
  simpa [checkedColumns, hne] using hnamed

private theorem contains_of_mem_checkedColumns {charts : List ChartPlan}
    {dateColumn name : String} (h : name ∈ d.checkedColumns charts dateColumn) :
    d.contains name = true := by
  unfold checkedColumns at h
  dsimp only at h
  split at h
  · obtain ⟨c, hc, rfl⟩ := List.mem_map.mp h
    exact contains_iff.mpr ⟨c, List.mem_of_mem_filter hc, rfl⟩
  · simp only [mem_foldl_addDistinct, List.not_mem_nil, false_or] at h
    exact (List.mem_filter.mp h).2

/-! ## Rows of charts in the rows of the check -/

theorem mem_rows_of_monthly {x : String} {names : List String}
    {axis : MonthAxis} {dropZero : Bool} {m all : Monthly}
    (hm : d.monthly x names axis dropZero = .ok m)
    (hall : d.monthly x names axis false = .ok all) :
    m.columns = all.columns ∧ ∀ row ∈ m.rows, row ∈ all.rows := by
  cases dropZero with
  | false =>
      cases hm.symm.trans hall
      exact ⟨rfl, fun _ => id⟩
  | true =>
      rw [monthly_withoutZeros, hall] at hm
      cases hm
      exact ⟨rfl, fun _ => List.mem_of_mem_filter⟩

private theorem exists_monthCheck {charts : List ChartPlan} {p : ChartPlan}
    (hp : p ∈ charts) {x : String} (haxis : d.dateAxis? = some x)
    {options : ChartOptions} {m : Monthly} (hseries : p.drawnKeys d ≠ [])
    (hm : d.monthly x (p.drawnKeys d) options.axis options.dropZero =
      .ok m) :
    ∃ check, d.monthCheck? charts options = some check ∧
      check.dateColumn = x ∧
      ∀ i < m.rows.length, ∃ j, m.RowIn i check.series j := by
  have hsubset : p.drawnKeys d ⊆ d.checkedColumns charts x :=
    fun _ hname => mem_checkedColumns_of_mem hp hname x
  have hne := List.ne_nil_of_mem (hsubset (List.head_mem hseries))
  obtain ⟨dates, hdates, -⟩ := monthly_eq_ok_iff.mp hm
  obtain ⟨series, hcheck⟩ : ∃ series, d.monthly x
      (d.checkedColumns charts x) options.axis false = .ok series :=
    ⟨_, monthly_of_contains hdates hne
      (fun _ => contains_of_mem_checkedColumns) options.axis false⟩
  obtain ⟨all, hall, hlength, hrowIn⟩ :=
    exists_monthly_of_subset hseries hsubset hcheck
  obtain ⟨hcolumns, hrows⟩ := mem_rows_of_monthly hm hall
  refine ⟨⟨x, options.axis, options.dropZero, series⟩,
    by simp [monthCheck?, haxis, hcheck, Except.toOption], rfl, ?_⟩
  intro i hi
  exact Monthly.exists_rowIn_of_mem hcolumns hrows
    (fun j hj => ⟨j, hrowIn j hj⟩) hi

private theorem exists_monthly_of_chart {p : ChartPlan} {options : ChartOptions}
    {chart : Chart} (hkind : p.IsOf .overTime)
    (hchart : p.chart? d options = .ok (some chart)) :
    ∃ x m, p.xKey.or d.dateAxis? = some x ∧ p.drawnKeys d ≠ [] ∧
      d.monthly x (p.drawnKeys d) options.axis options.dropZero = .ok m ∧
      chart.rows = m.dataRows := by
  rw [ChartPlan.chart?_of_overTime hkind] at hchart
  obtain ⟨x, dates, hx, hdates, hseries⟩ := ChartPlan.overTime_eq_some hchart
  rw [ChartPlan.overTime_of_dates hx hdates hseries, Except.ok.injEq,
    Option.some.injEq] at hchart
  refine ⟨x, _, hx, ?_, ChartPlan.monthly_drawnKeys hdates hseries options, ?_⟩
  · simpa [ChartPlan.drawnKeys] using hseries
  · rw [← hchart]

/--
Columns that are summed together with more columns have the same months and the
same values as by themselves, and leaving out months of zeros takes away the
rows in which all values are zero and changes nothing else.  So every row behind
a chart over time that is drawn by the date axis stands, with its values, in the
sums by which the months of the dashboard are checked.
-/
theorem series_independent (d : Dataset) :
    (∀ x axis names more b, names ≠ [] → names ⊆ more →
      d.monthly x more axis false = .ok b →
      ∃ a, d.monthly x names axis false = .ok a ∧
        a.rows.length = b.rows.length ∧
        ∀ i < a.rows.length, a.RowIn i b i) ∧
    (∀ x axis names, d.monthly x names axis true =
      (d.monthly x names axis false).map Monthly.withoutZeros) ∧
    ∀ id plan s o version build, d.dashboard id plan s o version = .ok build →
      ∀ p ∈ plan.charts.take s.maxCharts, p.IsOf .overTime →
      p.xKey.or d.dateAxis? = d.dateAxis? →
      ∀ chart, p.chart? d (o.resolve s) = .ok (some chart) →
      chart ∈ build.document.charts ∧
      ∃ check m, d.dashboardCheck? plan s o = some check ∧
        d.dateAxis? = some check.dateColumn ∧
        d.monthly check.dateColumn (p.drawnKeys d) (o.resolve s).axis
          (o.resolve s).dropZero = .ok m ∧
        chart.rows = m.dataRows ∧
        ∀ i < m.rows.length, ∃ j, m.RowIn i check.series j := by
  refine ⟨fun x axis names more b => exists_monthly_of_subset,
    fun x axis names => monthly_withoutZeros d x names axis, ?_⟩
  intro id plan s o version build hbuild p hp hkind haxis chart hchart
  refine ⟨mem_charts_of_dashboard hbuild hp hchart, ?_⟩
  obtain ⟨x, m, hx, hseries, hm, hrows⟩ :=
    exists_monthly_of_chart hkind hchart
  obtain ⟨check, hcheck, hdateColumn, hrowIn⟩ := exists_monthCheck
    (List.mem_of_mem_take hp) (haxis.symm.trans hx) hseries hm
  subst hdateColumn
  exact ⟨check, m, (dashboardCheck?_of_dashboard hbuild).trans hcheck,
    haxis.symm.trans hx, hm, hrows, hrowIn⟩

theorem series_independent_twoCharts :
    let dates : List (Option Timestamp) := [
      some (.ofDate ⟨2023, 12, 3, by decide⟩), none,
      some (.ofDate ⟨2024, 2, 9, by decide⟩)]
    let d : Dataset := ⟨[⟨"data", .date, .dates dates⟩,
      ⟨"receita", .number, .numbers [some 1.5, some 2.5, none]⟩,
      ⟨"qtd", .string, .texts [.text "2", .text "3", .text "x"]⟩], 3⟩
    let lines : ChartPlan := {
      kind := "line", title := "R", series := some [⟨"receita", "R", none⟩] }
    let bars : ChartPlan := {
      kind := "bar", title := "Q", xKey := some "data", yKey := some "qtd" }
    let plan : Plan := { charts := [bars, lines] }
    let s : Settings := { policy := .skipFailed, axis := .continuous }
    (∃ a b, d.monthly "data" ["receita"] .continuous false = .ok a ∧
      d.monthly "data" ["qtd", "receita"] .continuous false = .ok b ∧
      a.rows.length = 3 ∧ a.RowIn 2 b 2) ∧
    ∃ chart check, ∃ m : Monthly,
      lines.chart? d (({} : Options).resolve s) = .ok (some chart) ∧
      d.dashboardCheck? plan s {} = some check ∧ chart.rows = m.dataRows ∧
      m.rows.length = 1 ∧ ∃ j, m.RowIn 0 check.series j := by
  intro dates d lines bars plan s
  obtain ⟨hseries, -, hcharts⟩ := series_independent d
  have hdates : d.dates? "data" = some dates := rfl
  constructor
  · have hb := @monthly_of_contains d "data" dates ["qtd", "receita"] hdates
      (by decide) (by decide) .continuous false
    obtain ⟨a, ha, hlength, hrows⟩ := hseries "data" .continuous ["receita"]
      ["qtd", "receita"] _ (by decide) (by decide) hb
    have hthree : a.rows.length = 3 := hlength.trans (by decide)
    exact ⟨a, _, ha, hb, hthree, hrows 2 (by omega)⟩
  · have hkind : lines.IsOf .overTime := by
      unfold ChartPlan.IsOf
      decide
    have hdrawn : lines.drawnSeries d ≠ [] := by decide
    have hchart := (ChartPlan.chart?_of_overTime hkind).trans
      (ChartPlan.overTime_of_dates rfl hdates hdrawn _
        (({} : Options).resolve s))
    obtain ⟨-, check, m, hcheck, haxis, hm, hrows, hrowIn⟩ :=
      hcharts "id" plan s {} "v" _ (d.dashboard_skipFailed "id" plan s {} "v")
        lines (by decide) hkind rfl _ hchart
    have hcolumn : "data" = check.dateColumn := Option.some.inj haxis
    rw [← hcolumn, ChartPlan.monthly_drawnKeys hdates hdrawn,
      Except.ok.injEq] at hm
    have hone : m.rows.length = 1 := by
      rw [← hm]
      decide +kernel
    exact ⟨_, check, m, hchart, hcheck, hrows, hone, hrowIn 0 (by omega)⟩

end Dataset

end Chartbook
