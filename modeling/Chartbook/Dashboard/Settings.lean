import Chartbook.Chart.Basic
import Chartbook.Json.Merge
import Chartbook.Json.Reader

/-!
# Settings

The settings of the library: built-in values, over them the members of a
settings file, and over those two environment variables.  Settings that have
been read show at least one bar and name a currency.
-/

namespace Chartbook

inductive FailurePolicy where
  | strict
  | skipFailed
  deriving DecidableEq, Repr

structure Settings where
  axis : MonthAxis := .occurring
  dropZeroMonths : Bool := true
  currency : String := "BRL"
  maxKpis : Nat := 6
  maxCharts : Nat := 4
  maxInsights : Nat := 4
  topN : Nat := 5
  previewRows : Nat := 5
  policy : FailurePolicy := .strict
  deriving DecidableEq, Repr

namespace Settings

def axisNames : List (String × MonthAxis) :=
  [("groupby", .occurring), ("resample", .continuous)]

def policyNames : List (String × FailurePolicy) :=
  [("strict", .strict), ("skip_failed", .skipFailed)]

def policyText : FailurePolicy → String
  | .strict => "strict"
  | .skipFailed => "skip_failed"

/-- A choice by name: a text, or an object whose only member is null and has it
as its key. -/
def choice? {α : Type} (names : List (String × α)) : Json → Option α
  | .text s => names.lookup s
  | .object [(s, .null)] => names.lookup s
  | _ => none

def toJson (s : Settings) : Json := .object [
  ("default_agg_mode", .text s.axis.text),
  ("drop_all_zero_months", .bool s.dropZeroMonths),
  ("default_currency", .text s.currency),
  ("max_kpis", .natural s.maxKpis),
  ("max_charts", .natural s.maxCharts),
  ("max_insights", .natural s.maxInsights),
  ("default_top_n", .natural s.topN),
  ("preview_rows", .natural s.previewRows),
  ("failure_policy", .text (policyText s.policy))]

open Json in
def ofJson? (v : Json) : Option Settings :=
  match v.fields? ["default_agg_mode", "drop_all_zero_months",
      "default_currency", "max_kpis", "max_charts", "max_insights",
      "default_top_n", "preview_rows", "failure_policy"] 0 with
  | some [axis, dropZero, currency, kpis, charts, insights, topN, previewRows,
      policy] => do
      let base : Settings := {}
      some {
        axis := ← withDefault base.axis (choice? axisNames) axis
        dropZeroMonths := ← withDefault base.dropZeroMonths bool? dropZero
        currency := ← withDefault base.currency text? currency
        maxKpis := ← withDefault base.maxKpis natural? kpis
        maxCharts := ← withDefault base.maxCharts natural? charts
        maxInsights := ← withDefault base.maxInsights natural? insights
        topN := ← withDefault base.topN natural? topN
        previewRows := ← withDefault base.previewRows natural? previewRows
        policy := ← withDefault base.policy (choice? policyNames) policy }
  | _ => none

def maxDepth : Nat := 127

def overlay? (content : String) (rounding : Json.Rounding := .quick) :
    Option Json := do
  let v ← Json.parse? content rounding
  if v.depth ≤ maxDepth ∧ v.isSound then some v.lastMembers else none

def validate (s : Settings) : Except Error Settings :=
  if s.topN = 0 then
    .error (.settings (.rule "default_top_n must be greater than 0"))
  else if Text.trim s.currency.toList = [] then
    .error (.settings (.rule "default_currency must not be empty"))
  else .ok s

def ofOverlay (content : Option String) (rounding : Json.Rounding := .quick) :
    Except Error Settings := do
  let patch ← match content with
    | none => pure (.object [])
    | some s =>
        match overlay? s rounding with
        | some v => pure v
        | none => throw (.settings (.notJson "not a JSON document"))
  match ofJson? (Json.merge ({} : Settings).toJson patch) with
  | some s => s.validate
  | none =>
      throw (.settings (.misfit "a setting has a value of the wrong kind"))

def isOn (flag : String) : Bool :=
  ["1", "true", "yes", "on"].contains (Text.lower (Text.trimmed flag))

def withEnvironment (s : Settings) (environment : String → Option String) :
    Settings :=
  { s with
    axis :=
      ((environment "DEFAULT_AGG_MODE").map MonthAxis.ofLabel).getD s.axis
    dropZeroMonths :=
      ((environment "DEFAULT_DROP_ALL_ZERO").map isOn).getD s.dropZeroMonths }

end Settings

/-- What a single request asks for instead of the settings. -/
structure Options where
  axisLabel : Option String := none
  dropZero : Option Bool := none
  deriving DecidableEq, Repr

namespace Options

def ofJson? (v : Json) : Option Options :=
  match v.fields? ["agg_mode", "drop_all_zero"] 2 with
  | some [axisLabel, dropZero] => do
      some ⟨← Json.optional Json.text? axisLabel,
        ← Json.optional Json.bool? dropZero⟩
  | _ => none

def resolve (o : Options) (s : Settings) : ChartOptions where
  axis := (o.axisLabel.map MonthAxis.ofLabel).getD s.axis
  dropZero := o.dropZero.getD s.dropZeroMonths
  topN := s.topN

end Options

end Chartbook
