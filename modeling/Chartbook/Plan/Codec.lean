import Chartbook.Json.Record
import Chartbook.Plan.Basic

/-!
# Plans as JSON

Reading and writing plans.  Optional fields may be left out or be null; written
plans have every field, except a series that does not say whether it is dashed.
-/

namespace Chartbook

open Json

namespace KpiPlan

def ofJson? (v : Json) : Option KpiPlan :=
  match v.fields? ["name", "value_expr", "fmt", "explain"] 2 with
  | some [name, expression, format, explanation] => do
      some ⟨← required text? name, ← required text? expression,
        ← optional text? format, ← optional text? explanation⟩
  | _ => none

def toJson (p : KpiPlan) : Json := .object [
  ("name", .text p.name),
  ("value_expr", .text p.expression),
  ("fmt", .optionalText p.format),
  ("explain", .optionalText p.explanation)]

end KpiPlan

namespace Series

def ofJson? (v : Json) : Option Series :=
  match v.fields? ["key", "label", "dashed"] 2 with
  | some [key, label, dashed] => do
      some ⟨← required text? key, ← required text? label,
        ← optional bool? dashed⟩
  | _ => none

def toJson (s : Series) : Json := .object <|
  [("key", .text s.key), ("label", .text s.label)] ++
    s.dashed.toList.map fun b => ("dashed", .bool b)

end Series

namespace ChartPlan

def ofJson? (v : Json) : Option ChartPlan :=
  match v.fields? ["type", "title", "xKey", "yKey", "series", "categoryKey",
    "valueKey", "topN"] 2 with
  | some [kind, title, xKey, yKey, series, categoryKey, valueKey, topN] => do
      some ⟨← required text? kind, ← required text? title,
        ← optional text? xKey, ← optional text? yKey,
        ← optional (list? Series.ofJson?) series,
        ← optional text? categoryKey, ← optional text? valueKey,
        ← optional natural? topN⟩
  | _ => none

def toJson (p : ChartPlan) : Json := .object [
  ("type", .text p.kind),
  ("title", .text p.title),
  ("xKey", .optionalText p.xKey),
  ("yKey", .optionalText p.yKey),
  ("series", (p.series.map fun ss => .array (ss.map Series.toJson)).getD .null),
  ("categoryKey", .optionalText p.categoryKey),
  ("valueKey", .optionalText p.valueKey),
  ("topN", (p.topN.map .natural).getD .null)]

end ChartPlan

namespace InsightPlan

def ofJson? (v : Json) : Option InsightPlan :=
  match v.fields? ["type", "title", "message"] 0 with
  | some [kind, title, message] => do
      some ⟨← optional text? kind, ← optional text? title,
        ← optional text? message⟩
  | _ => none

def toJson (p : InsightPlan) : Json := .object [
  ("type", .optionalText p.kind),
  ("title", .optionalText p.title),
  ("message", .optionalText p.message)]

end InsightPlan

namespace Plan

def ofJson? (v : Json) : Option Plan :=
  match v.fields? ["kpis", "charts", "insights"] 0 with
  | some [kpis, charts, insights] => do
      some ⟨← withDefault [] (list? KpiPlan.ofJson?) kpis,
        ← withDefault [] (list? ChartPlan.ofJson?) charts,
        ← withDefault [] (list? InsightPlan.ofJson?) insights⟩
  | _ => none

def toJson (p : Plan) : Json := .object [
  ("kpis", .array (p.kpis.map KpiPlan.toJson)),
  ("charts", .array (p.charts.map ChartPlan.toJson)),
  ("insights", .array (p.insights.map InsightPlan.toJson))]

end Plan

end Chartbook
