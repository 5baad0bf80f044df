import Chartbook.Dashboard.Document
import Chartbook.Dashboard.Settings

/-!
# Assembling dashboards

A plan is cut to the limits of the settings, then its KPIs and its charts are
computed in order.  Under the strict policy the first failing item is the
result; otherwise failing items are reported.
-/

namespace Chartbook

/--
The results of a list of items and the failures among them.  An item may also
have no result without having failed.
-/
def gather {α β : Type} (policy : FailurePolicy) (kind : ItemKind)
    (name : α → String) (run : α → Except Error (Option β)) :
    List α → Except Error (List β × List ItemFailure)
  | [] => .ok ([], [])
  | a :: rest =>
      match run a with
      | .ok result => (gather policy kind name run rest).map fun (bs, fs) =>
          (result.toList ++ bs, fs)
      | .error e =>
          match policy with
          | .strict => .error e
          | .skipFailed =>
              (gather policy kind name run rest).map fun (bs, fs) =>
                (bs, ⟨kind, name a, e⟩ :: fs)

/-- The monthly sums behind the charts of a plan, by which their months can be
checked. -/
structure MonthCheck where
  dateColumn : String
  axis : MonthAxis
  dropZero : Bool
  series : Monthly

namespace MonthCheck

def headRows : Nat := 24

def head (c : MonthCheck) : List Row := c.series.dataRows.take headRows

end MonthCheck

def ChartPlan.valueColumns (p : ChartPlan) : List String :=
  (p.series.getD []).map (·.key) ++ p.yKey.toList ++ p.valueKey.toList

def addDistinct (names : List String) (name : String) : List String :=
  if name ∈ names then names else names ++ [name]

namespace Dataset

def checkedColumns (d : Dataset) (charts : List ChartPlan)
    (dateColumn : String) : List String :=
  let named := ((charts.flatMap ChartPlan.valueColumns).filter
    d.contains).foldl addDistinct []
  if named.isEmpty then
    (d.columns.filter fun c =>
      c.values.areNumbers && c.name != dateColumn).map (·.name)
  else named

/-- The check of all charts of a plan; it keeps months whose sums are zero. -/
def monthCheck? (d : Dataset) (charts : List ChartPlan)
    (options : ChartOptions) : Option MonthCheck := do
  let dateColumn ← d.dateAxis?
  let series ← (d.monthly dateColumn (d.checkedColumns charts dateColumn)
    options.axis false).toOption
  some ⟨dateColumn, options.axis, options.dropZero, series⟩

def gatherKpis (d : Dataset) (plan : Plan) (s : Settings) :
    Except Error (List Kpi × List ItemFailure) :=
  gather s.policy .kpi KpiPlan.name (fun p => (d.kpi s.currency p).map some)
    (plan.kpis.take s.maxKpis)

def gatherCharts (d : Dataset) (plan : Plan) (s : Settings)
    (options : ChartOptions) :
    Except Error (List Chart × List ItemFailure) :=
  gather s.policy .chart ChartPlan.title (fun p => p.chart? d options)
    (plan.charts.take s.maxCharts)

def dashboard (d : Dataset) (datasetId : String) (plan : Plan) (s : Settings)
    (o : Options) (version : String) : Except Error Build := do
  let (kpis, kpiFailures) ← d.gatherKpis plan s
  let (charts, chartFailures) ← d.gatherCharts plan s (o.resolve s)
  return {
    document := {
      datasetId, kpis, charts
      insights := (plan.insights.take s.maxInsights).map Insight.ofPlan
      timeGrain := d.dateAxis?.map fun _ => "month"
      version }
    failures := kpiFailures ++ chartFailures }

/-- The check that accompanies a dashboard: it is made after the KPIs and before
the charts. -/
def dashboardCheck? (d : Dataset) (plan : Plan) (s : Settings) (o : Options) :
    Option MonthCheck :=
  match d.gatherKpis plan s with
  | .ok _ => d.monthCheck? plan.charts (o.resolve s)
  | .error _ => none

end Dataset

end Chartbook
