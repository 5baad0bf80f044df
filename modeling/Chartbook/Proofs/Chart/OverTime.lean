import Chartbook.Chart.Basic
import Chartbook.Proofs.Dataset.Monthly
import Chartbook.Proofs.Json.Real

/-!
# Rows of charts over time

A row is written in one key space: first the label of its month under the key
`month`, then the sum of each series under the name of its column.  The sums are
therefore always found, but the label is found only as long as no series is
keyed `month` itself.
-/

namespace Chartbook

/-! ## Values written under several keys -/

theorem Keyed.get?_foldl_insert {α : Type} (f : String → α) (keys : List String)
    (s : Keyed α) (key : String) :
    (keys.foldl (fun r k => r.insert k (f k)) s).get? key =
      if key ∈ keys then some (f key) else s.get? key := by
  induction keys generalizing s with
  | nil => simp
  | cons k keys ih =>
      rw [List.foldl_cons, ih, Keyed.get?_insert]
      by_cases hkeys : key ∈ keys
      · simp [hkeys]
      · by_cases hkey : key = k
        · simp [hkey]
        · simp [hkey, hkeys]

namespace Monthly

theorem get?_dataRow (f : String → Float) (columns : List String) (m : Month)
    (key : String) :
    (dataRow columns (m, columns.map f)).get? key =
      if key ∈ columns then some (.number (f key))
      else if key = "month" then some (.text m.text) else none := by
  rw [dataRow, ← List.map_prod_left_eq_zip, List.foldl_map,
    Keyed.get?_foldl_insert fun c => Datum.number (f c), Keyed.get?_insert]
  rfl

end Monthly

namespace ChartPlan

variable {plan : ChartPlan} {d : Dataset} {options : ChartOptions}
  {chart : Chart}

def drawnKeys (plan : ChartPlan) (d : Dataset) : List String :=
  (plan.drawnSeries d).map (·.key)

def monthlyOver (plan : ChartPlan) (d : Dataset)
    (dates : List (Option Timestamp)) (options : ChartOptions) : Monthly :=
  ⟨plan.drawnKeys d, .ofColumns dates ((plan.drawnKeys d).map d.numericOf)
    options.axis options.dropZero⟩

private theorem contains_of_mem_drawnKeys {key : String}
    (h : key ∈ plan.drawnKeys d) : d.contains key = true := by
  obtain ⟨s, hs, rfl⟩ := List.mem_map.mp h
  exact (List.mem_filter.mp hs).2

theorem monthly_drawnKeys {x : String} {dates : List (Option Timestamp)}
    (hdates : d.dates? x = some dates) (hseries : plan.drawnSeries d ≠ [])
    (options : ChartOptions) :
    d.monthly x (plan.drawnKeys d) options.axis options.dropZero =
      .ok (plan.monthlyOver d dates options) :=
  Dataset.monthly_of_contains hdates (by simpa [drawnKeys] using hseries)
    (fun _ => contains_of_mem_drawnKeys) options.axis options.dropZero

theorem overTime_of_dates {x : String} {dates : List (Option Timestamp)}
    (hx : plan.xKey.or d.dateAxis? = some x) (hdates : d.dates? x = some dates)
    (hseries : plan.drawnSeries d ≠ []) (kind : String)
    (options : ChartOptions) :
    plan.overTime kind d options = .ok (some {
      kind, title := plan.title
      rows := (plan.monthlyOver d dates options).dataRows
      xKey := some "month", series := some (plan.drawnSeries d) }) := by
  have hempty : (plan.drawnSeries d).isEmpty = false := by simpa using hseries
  rw [overTime, hx]
  simp only [Dataset.isDateColumn_iff.mpr ⟨dates, hdates⟩, hempty]
  rw [← drawnKeys, monthly_drawnKeys hdates hseries]
  rfl

theorem overTime_eq_some {kind : String}
    (h : plan.overTime kind d options = .ok (some chart)) :
    ∃ x dates, plan.xKey.or d.dateAxis? = some x ∧
      d.dates? x = some dates ∧ plan.drawnSeries d ≠ [] := by
  rw [overTime] at h
  split at h
  · cases h
  · rename_i x hx
    by_cases hdate : d.isDateColumn x = true
    · obtain ⟨dates, hdates⟩ := Dataset.isDateColumn_iff.mp hdate
      refine ⟨x, dates, hx, hdates, fun hseries => ?_⟩
      simp [hdate, hseries] at h
      cases h
    · simp [hdate] at h
      cases h

theorem chart?_eq_overTime
    (hkind : Text.lower (Text.trimmed plan.kind) = "line" ∨
      Text.lower (Text.trimmed plan.kind) = "area")
    (d : Dataset) (options : ChartOptions) :
    plan.chart? d options =
      plan.overTime (Text.lower (Text.trimmed plan.kind)) d options := by
  rw [chart?, Family.ofKind?, if_pos hkind]

/-! ## What the rows hold -/

section Rows

variable {dates : List (Option Timestamp)} {m : Month} {sums : List Float}

theorem sums_of_mem_monthlyOver
    (h : (m, sums) ∈ (plan.monthlyOver d dates options).rows) :
    m.IsCalendar ∧ sums = (plan.drawnKeys d).map (d.monthSum dates m) := by
  obtain ⟨hcalendar, hsums⟩ := MonthSums.mem_ofColumns h
  exact ⟨hcalendar, hsums.trans List.map_map⟩

theorem get?_of_mem_monthlyOver
    (h : (m, sums) ∈ (plan.monthlyOver d dates options).rows) (key : String) :
    (Monthly.dataRow (plan.drawnKeys d) (m, sums)).get? key =
      if key ∈ plan.drawnKeys d then some (.number (d.monthSum dates m key))
      else if key = "month" then some (.text m.text) else none := by
  obtain ⟨-, rfl⟩ := sums_of_mem_monthlyOver h
  exact Monthly.get?_dataRow ..

theorem labels_monthlyOver_iff :
    (plan.monthlyOver d dates options).dataRows.map (·.get? "month") =
        (plan.monthlyOver d dates options).months.map (some ∘ Datum.text) ↔
      "month" ∉ plan.drawnKeys d ∨
        (plan.monthlyOver d dates options).dataRows = [] := by
  rw [Monthly.dataRows, Monthly.months, List.map_map, List.map_map,
    List.map_inj_left, List.map_eq_nil_iff]
  constructor
  · intro hlabels
    by_cases hkey : "month" ∈ plan.drawnKeys d
    · refine .inr (List.eq_nil_iff_forall_not_mem.mpr fun row hrow => ?_)
      have hnumber := (get?_of_mem_monthlyOver hrow "month").trans (if_pos hkey)
      cases hnumber.symm.trans (hlabels row hrow)
    · exact .inl hkey
  · rintro (hkey | hnil) row hrow
    · have hlabel := (get?_of_mem_monthlyOver hrow "month").trans (if_neg hkey)
      exact hlabel.trans (if_pos rfl)
    · rw [hnil] at hrow
      contradiction

end Rows

/--
A chart over time has one row a month, in the order of the monthly sums.  Under
the key of each series a row has the sum of that column over the days of the
month, written as null if it is not finite.  Under `month` the rows have the
labels of their months unless a series has that key, whose sums then replace
them.
-/
theorem rows_overTime
    (hkind : Text.lower (Text.trimmed plan.kind) = "line" ∨
      Text.lower (Text.trimmed plan.kind) = "area")
    (h : plan.chart? d options = .ok (some chart)) :
    ∃ x dates monthly, plan.xKey.or d.dateAxis? = some x ∧
      d.dates? x = some dates ∧
      d.monthly x (plan.drawnKeys d) options.axis options.dropZero =
        .ok monthly ∧
      chart.xKey = some "month" ∧ chart.series = some (plan.drawnSeries d) ∧
      chart.rows.length = monthly.rows.length ∧
      (∀ i month sums row, monthly.rows[i]? = some (month, sums) →
        chart.rows[i]? = some row →
        (0 ≤ month.year → month.year ≤ 9999 → month.IsLabel month.text) ∧
        ∀ key ∈ plan.drawnKeys d,
          monthly.value? i key = some (d.monthSum dates month key) ∧
          row.get? key = some (.number (d.monthSum dates month key)) ∧
          ((Datum.number (d.monthSum dates month key)).toJson.compact =
              Json.null.compact ↔
            Number.infinite ≤ Number.magnitude (d.monthSum dates month key))) ∧
      (chart.rows.map (·.get? "month") =
          monthly.months.map (some ∘ Datum.text) ↔
        "month" ∉ plan.drawnKeys d ∨ chart.rows = []) := by
  have hover := (chart?_eq_overTime hkind d options).symm.trans h
  obtain ⟨x, dates, hx, hdates, hseries⟩ := overTime_eq_some hover
  rw [overTime_of_dates hx hdates hseries, Except.ok.injEq,
    Option.some.injEq] at hover
  subst hover
  refine ⟨x, dates, plan.monthlyOver d dates options, hx, hdates,
    monthly_drawnKeys hdates hseries options, rfl, rfl, List.length_map ..,
    fun i month sums row hmonth hrow => ?_, labels_monthlyOver_iff⟩
  have hmem := List.mem_of_getElem? hmonth
  obtain ⟨hcalendar, hsums⟩ := sums_of_mem_monthlyOver hmem
  rw [Monthly.dataRows, List.getElem?_map, hmonth, Option.map_some,
    Option.some.injEq] at hrow
  subst hrow
  refine ⟨Month.isLabel_text hcalendar, fun key hkey => ⟨?_, ?_,
    Json.realChars_eq_null_iff _⟩⟩
  · rw [hsums] at hmonth
    exact Monthly.value?_map hmonth hkey
  · exact (get?_of_mem_monthlyOver hmem key).trans (if_pos hkey)

theorem rows_overTime_filled :
    let dates : List (Option Timestamp) := [
      some (.ofDate ⟨2023, 12, 3, by decide⟩), none,
      some (.ofDate ⟨2024, 2, 9, by decide⟩)]
    let d : Dataset := ⟨[⟨"data", .date, .dates dates⟩,
      ⟨"receita", .number, .numbers [some 1.5, some 2.5, none]⟩], 3⟩
    let plan : ChartPlan := {
      kind := " Line ", title := "Receita"
      series := some [⟨"receita", "R", none⟩, ⟨"lucro", "L", none⟩] }
    ∃ chart,
      plan.chart? d { axis := .continuous, dropZero := false } =
        .ok (some chart) ∧
      chart.rows.map (·.get? "month") =
        ["2023-12", "2024-01", "2024-02"].map (some ∘ Datum.text) ∧
      ∀ row ∈ chart.rows[1]?, row.get? "receita" =
        some (.number (d.monthSum dates ⟨2024, 1⟩ "receita")) := by
  intro dates d plan
  have hkind : Text.lower (Text.trimmed plan.kind) = "line" := by
    decide
  have hdates : d.dates? "data" = some dates := rfl
  have hchart := (chart?_eq_overTime (.inl hkind) d
    { axis := .continuous, dropZero := false }).trans
      (overTime_of_dates rfl hdates (by decide) _ _)
  obtain ⟨x, dates', monthly, hx, hdates', hmonthly, -, -, -, hrows, hlabels⟩ :=
    rows_overTime (.inl hkind) hchart
  cases hx
  cases hdates'
  cases hmonthly
  have hmonths : (plan.monthlyOver d dates
      { axis := .continuous, dropZero := false }).months =
        ["2023-12", "2024-01", "2024-02"] := by
    decide
  refine ⟨_, hchart, (hlabels.mpr (.inl (by decide))).trans
    (congrArg (List.map (some ∘ Datum.text)) hmonths), fun row hrow => ?_⟩
  exact ((hrows 1 ⟨2024, 1⟩ [0.0] row rfl hrow).2 "receita" (by decide)).2.1

theorem label_replaced_by_series :
    let dates : List (Option Timestamp) := [
      some (.ofDate ⟨2024, 1, 3, by decide⟩),
      some (.ofDate ⟨2024, 1, 20, by decide⟩),
      some (.ofDate ⟨2024, 3, 9, by decide⟩)]
    let d : Dataset := ⟨[⟨"data", .date, .dates dates⟩,
      ⟨"month", .number, .numbers [some 10, some 5, some 7]⟩,
      ⟨"receita", .number, .numbers [some 1, some 2, some 3]⟩], 3⟩
    let plan : ChartPlan := {
      kind := "line", title := "T", xKey := some "data"
      series := some [⟨"month", "M", none⟩, ⟨"receita", "R", none⟩] }
    ∃ chart row, plan.chart? d { dropZero := false } = .ok (some chart) ∧
      chart.xKey = some "month" ∧ row ∈ chart.rows ∧
      ∀ label, row.get? "month" ≠ some (.text label) := by
  intro dates d plan
  have hkind : Text.lower (Text.trimmed plan.kind) = "line" := by
    decide
  have hdates : d.dates? "data" = some dates := rfl
  have hchart := (chart?_eq_overTime (.inl hkind) d { dropZero := false }).trans
    (overTime_of_dates rfl hdates (by decide) _ _)
  refine ⟨_, _, hchart, rfl, List.mem_cons_self .., fun label hlabel => ?_⟩
  cases hlabel

end ChartPlan

end Chartbook
