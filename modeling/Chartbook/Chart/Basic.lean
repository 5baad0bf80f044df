import Chartbook.Chart.Grouping
import Chartbook.Dataset.DateAxis
import Chartbook.Dataset.Monthly
import Chartbook.Plan.Codec

/-!
# Charts

Turning a chart plan into a chart with its data.  Charts over time sum by month,
bars show the largest groups, and compositions show all groups.  A chart over
time is skipped if there is no time or nothing to draw; every other mismatch of
plan and dataset is an error with the title of the chart.
-/

namespace Chartbook

structure Chart where
  kind : String
  title : String
  rows : List Row
  xKey : Option String := none
  yKey : Option String := none
  series : Option (List Series) := none
  categoryKey : Option String := none
  valueKey : Option String := none

structure ChartOptions where
  axis : MonthAxis := .occurring
  dropZero : Bool := true
  topN : Nat := 5
  deriving DecidableEq, Repr

inductive ChartFault where
  | unsupported (kind : String)
  | notDates (column : String)
  | keysMissing (first second : String)
  | noColumn (column : String)
  | notNumeric (column : String)
  deriving DecidableEq, Repr

def ChartFault.reason : ChartFault → String
  | unsupported kind => s!"unsupported chart type '{kind}'"
  | notDates c => s!"requires a valid date column, '{c}' is not one"
  | keysMissing first second => s!"{first} and {second} are both required"
  | noColumn c => s!"column '{c}' not found"
  | notNumeric c => s!"column '{c}' is not numeric"

namespace ChartPlan

def fail {α : Type} (plan : ChartPlan) (fault : ChartFault) : Except Error α :=
  .error (.chart plan.title fault.reason)

def drawnSeries (plan : ChartPlan) (d : Dataset) : List Series :=
  (plan.series.getD []).filter fun s => d.contains s.key

def overTime (plan : ChartPlan) (kind : String) (d : Dataset)
    (options : ChartOptions) :
    Except Error (Option Chart) :=
  match plan.xKey.or d.dateAxis? with
  | none => .ok none
  | some x => do
      if !d.isDateColumn x then plan.fail (.notDates x)
      let series := plan.drawnSeries d
      if series.isEmpty then return none
      let monthly ←
        d.monthly x (series.map (·.key)) options.axis options.dropZero
      return some {
        kind, title := plan.title, rows := monthly.dataRows
        xKey := some "month", series := some series }

def columnOf (plan : ChartPlan) (d : Dataset) (name : String) :
    Except Error Dataset.Column :=
  match d.column? name with
  | some c => .ok c
  | none => plan.fail (.noColumn name)

def isMeasure : Values → Bool
  | .numbers _ => true
  | .dates _ => false
  | .texts cells => cells.any fun c => c.plainNumber?.isSome

def measureOf (plan : ChartPlan) (d : Dataset) (name : String) :
    Except Error Dataset.Column := do
  let c ← plan.columnOf d name
  if isMeasure c.values then pure c else plan.fail (.notNumeric name)

def bothKeys (plan : ChartPlan) (first second : Option String)
    (firstName secondName : String) :
    Except Error (String × String) :=
  match first, second with
  | some a, some b => .ok (a, b)
  | _, _ => plan.fail (.keysMissing firstName secondName)

def groupRow (labelKey valueKey : String) (g : Group) : Row :=
  ((∅ : Row).insert labelKey (.text g.label)).insert valueKey (.number g.sum)

/-- The groups with the largest sums; groups with equal sums stay in category
order. -/
def largest (n : Nat) (groups : List Group) : List Group :=
  (groups.mergeSort fun a b => Number.rank b.sum ≤ Number.rank a.sum).take n

def barCount (plan : ChartPlan) (options : ChartOptions) : Nat :=
  (plan.topN.filter (0 < ·)).getD options.topN

def bars (plan : ChartPlan) (d : Dataset) (options : ChartOptions) :
    Except Error Chart := do
  let (x, y) ← plan.bothKeys plan.xKey plan.yKey "xKey" "yKey"
  let x ← plan.columnOf d x
  let y ← plan.measureOf d y
  return {
    kind := "bar", title := plan.title
    rows := (largest (plan.barCount options)
      (Dataset.groups x.values y.values)).map (groupRow x.name y.name)
    xKey := some x.name, yKey := some y.name }

def composition (plan : ChartPlan) (kind : String) (d : Dataset) :
    Except Error Chart := do
  let (category, value) ←
    plan.bothKeys plan.categoryKey plan.valueKey "categoryKey" "valueKey"
  let category ← plan.columnOf d category
  let value ← plan.measureOf d value
  return {
    kind, title := plan.title
    rows := (Dataset.groups category.values value.values).map
      (groupRow "name" "value")
    categoryKey := some "name", valueKey := some "value" }

inductive Family where
  | overTime
  | bars
  | composition
  deriving DecidableEq, Repr

def Family.ofKind? (kind : String) : Option Family :=
  if kind = "line" ∨ kind = "area" then some overTime
  else if kind = "bar" ∨ kind = "stacked_bar" then some bars
  else if kind = "pie" ∨ kind = "donut" then some composition
  else none

/-- The chart of a plan; no chart means that it is skipped. -/
def chart? (plan : ChartPlan) (d : Dataset) (options : ChartOptions) :
    Except Error (Option Chart) :=
  let kind := Text.lower (Text.trimmed plan.kind)
  match Family.ofKind? kind with
  | some .overTime => plan.overTime kind d options
  | some .bars => (plan.bars d options).map some
  | some .composition => (plan.composition kind d).map some
  | none => plan.fail (.unsupported kind)

end ChartPlan

def Chart.toJson (c : Chart) : Json := .object <|
  [("type", .text c.kind),
   ("title", .text c.title),
   ("data", .array (c.rows.map Row.toJson))] ++
    (c.xKey.toList.map fun k => ("xKey", .text k)) ++
    (c.yKey.toList.map fun k => ("yKey", .text k)) ++
    (c.series.toList.map fun ss => ("series", .array (ss.map Series.toJson))) ++
    (c.categoryKey.toList.map fun k => ("categoryKey", .text k)) ++
    (c.valueKey.toList.map fun k => ("valueKey", .text k))

end Chartbook
