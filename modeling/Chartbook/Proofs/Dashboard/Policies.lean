import Chartbook.Dashboard.Assembly

/-!
# The failure policies

The two policies are compared on one plan.  Both consider the items of a plan
one by one, so their common reference is a list of single outcomes: what the
tolerant policy keeps and reports is read off that list, and the strict policy
fails exactly when something would be reported.
-/

namespace Chartbook

def failureOf? {β : Type} (kind : ItemKind) (name : String) :
    Except Error β → Option ItemFailure
  | .ok _ => none
  | .error e => some ⟨kind, name, e⟩

def isSkipped {β : Type} : Except Error (Option β) → Bool
  | .ok none => true
  | _ => false

section Gather

variable {α β : Type} (kind : ItemKind) (name : α → String)
  (run : α → Except Error (Option β))

def itemResults (items : List α) : List β :=
  items.filterMap fun a => (run a).toOption.join

def itemFailures (items : List α) : List ItemFailure :=
  items.filterMap fun a => failureOf? kind (name a) (run a)

theorem itemResults_cons (a : α) (rest : List α) :
    itemResults run (a :: rest) =
      (run a).toOption.join.toList ++ itemResults run rest := by
  cases h : (run a).toOption.join <;> simp [itemResults, h]

theorem itemFailures_cons (a : α) (rest : List α) :
    itemFailures kind name run (a :: rest) =
      (failureOf? kind (name a) (run a)).toList ++
        itemFailures kind name run rest := by
  cases h : failureOf? kind (name a) (run a) <;> simp [itemFailures, h]

theorem gather_skipFailed (items : List α) :
    gather .skipFailed kind name run items =
      .ok (itemResults run items, itemFailures kind name run items) := by
  induction items with
  | nil => rfl
  | cons a rest ih =>
      rw [gather, itemResults_cons, itemFailures_cons, ih]
      cases run a with
      | error e => rfl
      | ok result => cases result <;> rfl

theorem gather_strict (items : List α) :
    gather .strict kind name run items =
      match itemFailures kind name run items with
      | [] => .ok (itemResults run items, [])
      | f :: _ => .error f.error := by
  induction items with
  | nil => rfl
  | cons a rest ih =>
      rw [gather, itemResults_cons, itemFailures_cons, ih]
      cases run a with
      | error e => rfl
      | ok result =>
          -- `a` did not fail, so `rest` tells whether the strict policy fails
          simp only [failureOf?, Option.toList_none, List.nil_append]
          cases itemFailures kind name run rest with
          | nil => cases result <;> rfl
          | cons f fs => rfl

theorem length_itemResults_add_itemFailures (items : List α) :
    (itemResults run items).length + items.countP (isSkipped ∘ run) +
      (itemFailures kind name run items).length = items.length := by
  induction items with
  | nil => rfl
  | cons a rest ih =>
      rw [itemResults_cons, itemFailures_cons, List.countP_cons]
      cases h : run a with
      | error e =>
          simp [h, failureOf?, isSkipped, Except.toOption]
          omega
      | ok result =>
          cases result <;>
            simp [h, failureOf?, isSkipped, Except.toOption] <;> omega

theorem countP_kind_itemFailures (kind' : ItemKind) (items : List α) :
    (itemFailures kind name run items).countP (·.kind = kind') =
      if kind = kind' then (itemFailures kind name run items).length
      else 0 := by
  induction items with
  | nil => simp [itemFailures]
  | cons a rest ih =>
      rw [itemFailures_cons, List.countP_append, ih]
      cases run a with
      | ok result => simp [failureOf?]
      | error e =>
          by_cases hkind : kind = kind'
          · simp [failureOf?, hkind]
            omega
          · simp [failureOf?, hkind]

end Gather

/-! An item that always has a result or a failure is never skipped. -/

@[simp] theorem toOption_map_some {β : Type} (r : Except Error β) :
    (r.map some).toOption.join = r.toOption := by
  cases r <;> rfl

@[simp] theorem failureOf?_map {β γ : Type} (kind : ItemKind) (name : String)
    (f : β → γ) (r : Except Error β) :
    failureOf? kind name (r.map f) = failureOf? kind name r := by
  cases r <;> rfl

@[simp] theorem isSkipped_map_some {β : Type} (r : Except Error β) :
    isSkipped (r.map some) = false := by
  cases r <;> rfl

namespace Dataset

variable (d : Dataset) (id : String) (plan : Plan) (s : Settings) (o : Options)
  (version : String)

/-- The build that keeps every result and reports every failure. -/
def tolerantBuild : Build where
  document := {
    datasetId := id
    kpis := itemResults (fun p => (d.kpi s.currency p).map some)
      (plan.kpis.take s.maxKpis)
    charts := itemResults (fun p => p.chart? d (o.resolve s))
      (plan.charts.take s.maxCharts)
    insights := (plan.insights.take s.maxInsights).map Insight.ofPlan
    timeGrain := d.dateAxis?.map fun _ => "month"
    version }
  failures :=
    itemFailures .kpi KpiPlan.name (fun p => (d.kpi s.currency p).map some)
      (plan.kpis.take s.maxKpis) ++
    itemFailures .chart ChartPlan.title (fun p => p.chart? d (o.resolve s))
      (plan.charts.take s.maxCharts)

theorem dashboard_skipFailed :
    d.dashboard id plan { s with policy := .skipFailed } o version =
      .ok (d.tolerantBuild id plan s o version) := by
  simp only [dashboard, gatherKpis, gatherCharts, gather_skipFailed]
  rfl

theorem dashboard_strict :
    d.dashboard id plan { s with policy := .strict } o version =
      match (d.tolerantBuild id plan s o version).failures with
      | [] => .ok (d.tolerantBuild id plan s o version)
      | f :: _ => .error f.error := by
  have hoptions : o.resolve { s with policy := .strict } = o.resolve s := rfl
  simp only [dashboard, gatherKpis, gatherCharts, gather_strict, hoptions,
    tolerantBuild]
  cases itemFailures .kpi KpiPlan.name
      (fun p => (d.kpi s.currency p).map some) (plan.kpis.take s.maxKpis) with
  | cons f fs => rfl
  | nil =>
      cases itemFailures .chart ChartPlan.title
          (fun p => p.chart? d (o.resolve s))
          (plan.charts.take s.maxCharts) with
      | cons f fs => rfl
      | nil => rfl

theorem length_kpis_add_failures :
    (d.tolerantBuild id plan s o version).document.kpis.length +
        (d.tolerantBuild id plan s o version).failures.countP (·.kind = .kpi) =
      (plan.kpis.take s.maxKpis).length := by
  have hkpis := length_itemResults_add_itemFailures .kpi KpiPlan.name
    (fun p => (d.kpi s.currency p).map some) (plan.kpis.take s.maxKpis)
  have hskipped : (plan.kpis.take s.maxKpis).countP
      (isSkipped ∘ fun p => (d.kpi s.currency p).map some) = 0 :=
    List.countP_eq_zero.mpr fun p _ => by simp
  rw [hskipped, Nat.add_zero] at hkpis
  simpa only [tolerantBuild, List.countP_append, countP_kind_itemFailures,
    reduceCtorEq, if_true, if_false, Nat.add_zero] using hkpis

theorem length_charts_add_failures :
    (d.tolerantBuild id plan s o version).document.charts.length +
        (plan.charts.take s.maxCharts).countP
          (fun p => isSkipped (p.chart? d (o.resolve s))) +
        (d.tolerantBuild id plan s o version).failures.countP
          (·.kind = .chart) =
      (plan.charts.take s.maxCharts).length := by
  have hcharts := length_itemResults_add_itemFailures .chart ChartPlan.title
    (fun p => p.chart? d (o.resolve s)) (plan.charts.take s.maxCharts)
  simpa only [tolerantBuild, List.countP_append, countP_kind_itemFailures,
    Function.comp_def, reduceCtorEq, if_true, if_false, Nat.zero_add]
    using hcharts

/--
Under the tolerant policy a dashboard always comes about.  Every item within the
limits stands in it or is reported, by its own outcome alone, or is a chart that
is skipped.  The strict policy gives the same document if nothing was reported,
at whatever day it is asked, and else the error reported first.
-/
theorem dashboard_policies_agree (version' : String) :
    ∃ build,
      d.dashboard id plan { s with policy := .skipFailed } o version =
          .ok build ∧
        build.document.kpis =
          ((plan.kpis.take s.maxKpis).filterMap fun p =>
            (d.kpi s.currency p).toOption) ∧
        build.document.charts =
          ((plan.charts.take s.maxCharts).filterMap fun p =>
            (p.chart? d (o.resolve s)).toOption.join) ∧
        build.failures =
          ((plan.kpis.take s.maxKpis).filterMap fun p =>
            failureOf? .kpi p.name (d.kpi s.currency p)) ++
          ((plan.charts.take s.maxCharts).filterMap fun p =>
            failureOf? .chart p.title (p.chart? d (o.resolve s))) ∧
        build.document.kpis.length + build.failures.countP (·.kind = .kpi) =
          (plan.kpis.take s.maxKpis).length ∧
        build.document.charts.length +
            (plan.charts.take s.maxCharts).countP
              (fun p => isSkipped (p.chart? d (o.resolve s))) +
            build.failures.countP (·.kind = .chart) =
          (plan.charts.take s.maxCharts).length ∧
        d.dashboard id plan { s with policy := .strict } o version' =
          match build.failures with
          | [] => .ok ⟨{ build.document with version := version' }, []⟩
          | f :: _ => .error f.error := by
  refine ⟨d.tolerantBuild id plan s o version, d.dashboard_skipFailed ..,
    ?_, rfl, ?_, d.length_kpis_add_failures .., d.length_charts_add_failures ..,
    ?_⟩
  · simp only [tolerantBuild, itemResults, toOption_map_some]
  · simp only [tolerantBuild, itemFailures, failureOf?_map]
  · have hlater : d.tolerantBuild id plan s o version' =
        ⟨{ (d.tolerantBuild id plan s o version).document with
            version := version' },
          (d.tolerantBuild id plan s o version).failures⟩ := rfl
    rw [dashboard_strict, hlater]
    cases h : (d.tolerantBuild id plan s o version).failures with
    | nil => rfl
    | cons f fs => rfl

end Dataset

end Chartbook
