import Chartbook.Plan.Codec
import Chartbook.Proofs.Json.Members
import Chartbook.Proofs.Json.RoundTrip

/-!
# Plans as JSON and back

A plan is read back from the value in which it is written, field by field.  Its
only numbers are those of bars to show; if they fit into 64 bits, the text of
the value keeps it as it is.
-/

namespace Chartbook

open Json

/-! ## Reading what was written -/

theorem KpiPlan.ofJson?_toJson (p : KpiPlan) : ofJson? p.toJson = some p := by
  rw [ofJson?, toJson, fields?_of_nodup (by simp)]
  simp [List.lookup_cons, required, text?, optional_optionalText]

theorem Series.ofJson?_toJson (s : Series) : ofJson? s.toJson = some s := by
  obtain ⟨key, label, dashed⟩ := s
  cases dashed with
  | none =>
      rw [ofJson?, toJson, fields?_of_nodup (by simp)]
      rfl
  | some dashed =>
      rw [ofJson?, toJson, fields?_of_nodup (by simp)]
      rfl

theorem ChartPlan.ofJson?_toJson (p : ChartPlan) :
    ofJson? p.toJson = some p := by
  have hseries := @optional_written _ (list? Series.ofJson?)
    (fun ss => .array (ss.map Series.toJson))
    (list?_written Series.ofJson?_toJson) nofun p.series
  have htopN := @optional_written _ natural? .natural (fun _ => rfl) nofun
    p.topN
  rw [ofJson?, toJson, fields?_of_nodup (by simp)]
  simp [List.lookup_cons, required, text?, optional_optionalText, hseries,
    htopN]

theorem InsightPlan.ofJson?_toJson (p : InsightPlan) :
    ofJson? p.toJson = some p := by
  rw [ofJson?, toJson, fields?_of_nodup (by simp)]
  simp [List.lookup_cons, optional_optionalText]

theorem Plan.ofJson?_toJson (p : Plan) : ofJson? p.toJson = some p := by
  have hkpis := list?_written KpiPlan.ofJson?_toJson p.kpis
  have hcharts := list?_written ChartPlan.ofJson?_toJson p.charts
  have hinsights := list?_written InsightPlan.ofJson?_toJson p.insights
  rw [ofJson?, toJson, fields?_of_nodup (by simp)]
  simp [List.lookup_cons, withDefault, hkpis, hcharts, hinsights]

/-! ## Values that a text keeps -/

theorem KpiPlan.isExact_toJson (p : KpiPlan) : p.toJson.IsExact :=
  isExact_object (by simp [isExact_text, isExact_optionalText])

theorem Series.isExact_toJson (s : Series) : s.toJson.IsExact := by
  obtain ⟨key, label, dashed⟩ := s
  cases dashed with
  | none => exact isExact_object (by simp [isExact_text])
  | some dashed => exact isExact_object (by simp [isExact_text, isExact_bool])

theorem ChartPlan.isExact_toJson {p : ChartPlan}
    (h : ∀ n ∈ p.topN, n < 0x10000000000000000) : p.toJson.IsExact := by
  have hseries : ((p.series.map fun ss =>
      Json.array (ss.map Series.toJson)).getD .null).IsExact := by
    cases p.series with
    | none => exact isExact_null
    | some ss =>
        exact isExact_array <|
          List.forall_mem_map.mpr fun s _ => s.isExact_toJson
  have htopN : ((p.topN.map Json.natural).getD .null).IsExact := by
    cases htopN : p.topN with
    | none => exact isExact_null
    | some n => exact isExact_natural (h n htopN)
  exact isExact_object
    (by simp [isExact_text, isExact_optionalText, hseries, htopN])

theorem InsightPlan.isExact_toJson (p : InsightPlan) : p.toJson.IsExact :=
  isExact_object (by simp [isExact_optionalText])

/-- A plan whose numbers of bars fit into 64 bits. -/
def Plan.Fits (p : Plan) : Prop :=
  ∀ chart ∈ p.charts, ∀ n ∈ chart.topN, n < 0x10000000000000000

theorem Plan.isExact_toJson {p : Plan} (h : p.Fits) : p.toJson.IsExact := by
  have hkpis := isExact_array <|
    List.forall_mem_map.mpr fun k (_ : k ∈ p.kpis) => k.isExact_toJson
  have hcharts := isExact_array <| List.forall_mem_map.mpr
    fun c (hc : c ∈ p.charts) => c.isExact_toJson (h c hc)
  have hinsights := isExact_array <|
    List.forall_mem_map.mpr fun i (_ : i ∈ p.insights) => i.isExact_toJson
  exact isExact_object (by simp [hkpis, hcharts, hinsights])

end Chartbook
