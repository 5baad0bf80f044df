import Chartbook.Chart.Basic
import Chartbook.Kpi.Evaluation

/-!
# Documents

The finished dashboard, and the items that were left out of it.
-/

namespace Chartbook

structure Insight where
  kind : String
  title : String
  message : String
  deriving DecidableEq, Repr

def Insight.ofPlan (p : InsightPlan) : Insight where
  kind := p.kind.getD "info"
  title := p.title.getD "Insight"
  message := p.message.getD ""

structure Document where
  datasetId : String
  kpis : List Kpi
  charts : List Chart
  insights : List Insight
  /-- The time by which a reader may filter, if the dataset has a date axis. -/
  timeGrain : Option String
  version : String

inductive ItemKind where
  | kpi
  | chart
  deriving DecidableEq, Repr

structure ItemFailure where
  kind : ItemKind
  name : String
  error : Error
  deriving DecidableEq, Repr

structure Build where
  document : Document
  failures : List ItemFailure

def Insight.toJson (i : Insight) : Json := .object [
  ("type", .text i.kind),
  ("title", .text i.title),
  ("message", .text i.message)]

def Document.toJson (d : Document) : Json := .object <|
  [("dataset_id", .text d.datasetId),
   ("kpis", .array (d.kpis.map Kpi.toJson)),
   ("charts", .array (d.charts.map Chart.toJson)),
   ("insights", .array (d.insights.map Insight.toJson))] ++
    (d.timeGrain.toList.map fun g =>
      ("filters", .object [("time_grain", .text g)])) ++
    [("version", .text d.version)]

def ItemKind.text : ItemKind → String
  | kpi => "kpi"
  | chart => "chart"

def ItemFailure.toJson (f : ItemFailure) : Json := .object [
  ("kind", .text f.kind.text),
  ("name", .text f.name),
  ("error", .text f.error.message)]

end Chartbook
