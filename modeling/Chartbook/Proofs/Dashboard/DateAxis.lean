import Chartbook.Dashboard.Assembly
import Chartbook.Proofs.Chart.Outcomes
import Chartbook.Proofs.Dataset.DateAxis
import Chartbook.Proofs.Kpi.Calls

/-!
# One date axis for a document

The filter of a document, the charts that name no column of dates and the growth
from month to month look the axis up by themselves.  They all find the same
column, or none of them finds one.
-/

namespace Chartbook

variable {d : Dataset}

/-! ## The filter -/

theorem Dataset.timeGrain_of_dashboard {id : String} {plan : Plan}
    {s : Settings} {o : Options} {version : String} {build : Build}
    (h : d.dashboard id plan s o version = .ok build) :
    build.document.timeGrain = d.dateAxis?.map fun _ => "month" := by
  unfold dashboard at h
  obtain ⟨kpis, -, h⟩ := bind_eq_ok.mp h
  obtain ⟨charts, -, h⟩ := bind_eq_ok.mp h
  cases h
  rfl

/-! ## Charts over time -/

namespace ChartPlan

/-- A chart over time that leaves the column of dates to the dataset. -/
structure OnAxis (plan : ChartPlan) : Prop where
  kind : plan.IsOf .overTime
  noColumn : plan.xKey = none

variable {plan : ChartPlan} {n : String}

theorem OnAxis.chart?_of_dateAxis? (h : plan.OnAxis)
    (hn : d.dateAxis? = some n) (hdate : d.isDateColumn n = true)
    (hseries : plan.drawnSeries d ≠ []) (options : ChartOptions) :
    ∃ chart, plan.chart? d options = .ok (some chart) ∧
      { plan with xKey := some n }.chart? d options = .ok (some chart) := by
  obtain ⟨dates, hdates⟩ := Dataset.isDateColumn_iff.mp hdate
  have hx : plan.xKey.or d.dateAxis? = some n := by
    rw [h.noColumn, hn]
    rfl
  have hnamed : { plan with xKey := some n }.IsOf .overTime := h.kind
  have hchart := overTime_of_dates hx hdates hseries
    (Text.lower (Text.trimmed plan.kind)) options
  refine ⟨_, (chart?_of_overTime h.kind).trans hchart, ?_⟩
  rw [chart?_of_overTime hnamed]
  exact @overTime_of_dates { plan with xKey := some n } d n dates rfl
    hdates hseries _ options

theorem OnAxis.chart?_of_none (h : plan.OnAxis) (hn : d.dateAxis? = none)
    (options : ChartOptions) : plan.chart? d options = .ok none := by
  rw [chart?_of_overTime h.kind]
  apply overTime_of_no_time
  rw [h.noColumn, hn]
  rfl

end ChartPlan

/-! ## Growth -/

namespace Dataset

private theorem numericOf_of_mem (hnames : d.columnNames.Nodup) {c : Column}
    (hc : c ∈ d.columns) : d.numericOf c.name = c.values.numeric := by
  have hfind := (column?_eq_some_iff hnames).mpr ⟨hc, rfl⟩
  simp [numericOf, hfind]

theorem gives_growth (hnames : d.columnNames.Nodup) {c : Column}
    (hc : c ∈ d.columns) :
    d.Gives .growth [c.name] (KpiFunction.growthOf d c) := by
  apply @gives_of_columns d .growth _ [c]
  · rfl
  · simp [(column?_eq_some_iff hnames).mpr ⟨hc, rfl⟩]
  · rfl

theorem growthOf_of_dateAxis? (hnames : d.columnNames.Nodup) {n : String}
    {dates : List (Option Timestamp)} (hn : d.dateAxis? = some n)
    (hdates : d.dates? n = some dates) {c : Column} (hc : c ∈ d.columns) :
    ∃ monthly, d.monthly n [c.name] .occurring true = .ok monthly ∧
      KpiFunction.growthOf d c = KpiFunction.change
        (monthly.rows.map fun row => d.monthSum dates row.1 c.name) := by
  have hmonthly := monthly_of_contains hdates (List.cons_ne_nil c.name [])
    (by simpa using contains_iff.mpr ⟨c, hc, rfl⟩) .occurring true
  refine ⟨_, hmonthly, ?_⟩
  unfold KpiFunction.growthOf
  rw [hn, Option.bind_some, hdates]
  apply congrArg KpiFunction.change
  rw [List.map_singleton, numericOf_of_mem hnames hc]
  apply List.map_congr_left
  intro row hrow
  obtain ⟨-, hsums⟩ := MonthSums.mem_ofColumns hrow
  rw [hsums, monthSum, numericOf_of_mem hnames hc]
  rfl

theorem growthOf_of_none (hn : d.dateAxis? = none) (c : Column) :
    KpiFunction.growthOf d c = 0.0 := by
  unfold KpiFunction.growthOf
  rw [hn]
  rfl

/-! ## All of them together -/

/--
A dataset has an axis if it has a column of dates that is not named for a part
of a date, and the axis is such a column.  With an axis, documents have a
filter, charts that leave the column of dates open are drawn by it, and the
growth goes by its months.  Without one, documents have no filter, such charts
are skipped, and the growth is zero.
-/
theorem one_date_axis (hnames : d.columnNames.Nodup) :
    ((∃ n, d.dateAxis? = some n) ↔ ∃ c, d.CanBeAxis c) ∧
    (∀ n, d.dateAxis? = some n →
      d.CanBeAxisNamed n ∧ d.AxisChoice n ∧
      (∀ id plan s o version build,
        d.dashboard id plan s o version = .ok build →
        build.document.timeGrain = some "month") ∧
      (∀ (plan : ChartPlan) options, plan.OnAxis →
        (∃ s ∈ plan.series.getD [], ∃ c ∈ d.columns, c.name = s.key) →
        ∃ chart, plan.chart? d options = .ok (some chart) ∧
          { plan with xKey := some n }.chart? d options = .ok (some chart)) ∧
      ∃ dates, d.dates? n = some dates ∧ ∀ c ∈ d.columns,
        ∃ monthly, d.monthly n [c.name] .occurring true = .ok monthly ∧
          d.Gives .growth [c.name] (KpiFunction.change
            (monthly.rows.map fun row => d.monthSum dates row.1 c.name))) ∧
    (d.dateAxis? = none →
      (∀ id plan s o version build,
        d.dashboard id plan s o version = .ok build →
        build.document.timeGrain = none) ∧
      (∀ (plan : ChartPlan) options, plan.OnAxis →
        plan.chart? d options = .ok none) ∧
      ∀ c ∈ d.columns, d.Gives .growth [c.name] 0.0) := by
  refine ⟨exists_dateAxis?_iff hnames, fun n hn => ?_, fun hn => ?_⟩
  · have hchoice := axisChoice_of_dateAxis? hnames hn
    have hdate := isDateColumn_of_dateAxis? hnames hn
    obtain ⟨dates, hdates⟩ := isDateColumn_iff.mp hdate
    refine ⟨hchoice.canBeAxisNamed, hchoice, ?_, ?_, dates, hdates, ?_⟩
    · intro id plan s o version build hbuild
      rw [timeGrain_of_dashboard hbuild, hn]
      rfl
    · intro plan options hplan hseries
      exact hplan.chart?_of_dateAxis? hn hdate
        (ChartPlan.drawnSeries_ne_nil_iff.mpr hseries) options
    · intro c hc
      obtain ⟨monthly, hmonthly, hgrowth⟩ :=
        growthOf_of_dateAxis? hnames hn hdates hc
      refine ⟨monthly, hmonthly, ?_⟩
      rw [← hgrowth]
      exact gives_growth hnames hc
  · refine ⟨?_, ?_, ?_⟩
    · intro id plan s o version build hbuild
      rw [timeGrain_of_dashboard hbuild, hn]
      rfl
    · exact fun plan options hplan => hplan.chart?_of_none hn options
    · intro c hc
      rw [← growthOf_of_none hn c]
      exact gives_growth hnames hc

theorem one_date_axis_dt :
    let dates : Values := .dates [some (.ofDate ⟨2024, 1, 5, by decide⟩), none]
    let numbers : Values := .numbers [some 1.5, some 2.5]
    let d : Dataset := ⟨[⟨"mes", .date, dates⟩, ⟨"venda", .date, dates⟩,
      ⟨"dt", .date, dates⟩, ⟨"v", .number, numbers⟩], 2⟩
    let d' : Dataset := ⟨[⟨"mes", .date, dates⟩, ⟨"v", .number, numbers⟩], 2⟩
    let plan : ChartPlan := {
      kind := "area", title := "T", series := some [⟨"v", "V", none⟩] }
    d.AxisChoice "dt" ∧ (∃ chart, plan.chart? d {} = .ok (some chart)) ∧
      plan.chart? d' {} = .ok none ∧ d'.Gives .growth ["v"] 0.0 := by
  intro dates numbers d d' plan
  have hplan : plan.OnAxis := ⟨by unfold ChartPlan.IsOf; decide, rfl⟩
  obtain ⟨-, hsome, -⟩ := @one_date_axis d (by decide)
  obtain ⟨-, -, hnone⟩ := @one_date_axis d' (by decide)
  obtain ⟨-, hchoice, -, hcharts, -⟩ := hsome "dt" rfl
  obtain ⟨-, hskipped, hgrowth⟩ := hnone rfl
  obtain ⟨chart, hchart, -⟩ := hcharts plan {} hplan
    ⟨_, List.mem_cons_self .., ⟨"v", .number, numbers⟩, by simp [d], rfl⟩
  refine ⟨hchoice, ⟨chart, hchart⟩, hskipped plan {} hplan, ?_⟩
  exact hgrowth ⟨"v", .number, numbers⟩ (by simp [d'])

end Dataset

end Chartbook
