import Chartbook.Proofs.Chart.OverTime
import Chartbook.Proofs.Except
import Chartbook.Proofs.Named
import Mathlib.Tactic.FinCases

/-!
# Outcomes of chart plans

A chart is drawn, is skipped or fails with the title of its plan.  Charts over
time are checked before their months are summed, so the sums never fail, and
they alone are skipped.  Bars and compositions choose their two columns in the
same way.
-/

namespace Chartbook.ChartPlan

variable {plan : ChartPlan} {d : Dataset} {options : ChartOptions}

/-! ## Failures with the title of the plan -/

/-- Every failure carries the title of the plan and one of the known reasons. -/
def FailsAs (plan : ChartPlan) {α : Type} (r : Except Error α) : Prop :=
  ∀ e, r = .error e → ∃ fault : ChartFault, e = .chart plan.title fault.reason

section FailsAs

variable {α β : Type}

theorem failsAs_ok (a : α) : plan.FailsAs (.ok a) := nofun

theorem failsAs_fail (fault : ChartFault) :
    plan.FailsAs (plan.fail fault : Except Error α) := by
  intro e he
  cases he
  exact ⟨fault, rfl⟩

theorem FailsAs.bind {r : Except Error α} {next : α → Except Error β}
    (h : plan.FailsAs r) (hnext : ∀ a, r = .ok a → plan.FailsAs (next a)) :
    plan.FailsAs (r >>= next) := by
  cases r with
  | error e => exact fun e' he' => h e' (by cases he'; rfl)
  | ok a => exact hnext a rfl

theorem FailsAs.map {r : Except Error α} (h : plan.FailsAs r) (f : α → β) :
    plan.FailsAs (r.map f) := by
  cases r with
  | error e => exact fun e' he' => h e' (by cases he'; rfl)
  | ok a => exact failsAs_ok _

end FailsAs

/-! ## Charts over time -/

theorem drawnSeries_ne_nil_iff :
    plan.drawnSeries d ≠ [] ↔
      ∃ s ∈ plan.series.getD [], ∃ c ∈ d.columns, c.name = s.key := by
  unfold drawnSeries
  rw [ne_eq, List.filter_eq_nil_iff]
  simp [← Dataset.contains_iff]

section OverTime

variable {kind x : String}

theorem overTime_of_no_time (hx : plan.xKey.or d.dateAxis? = none) :
    plan.overTime kind d options = .ok none := by
  rw [overTime, hx]

private theorem overTime_of_not_dates (hx : plan.xKey.or d.dateAxis? = some x)
    (hdate : d.isDateColumn x = false) :
    plan.overTime kind d options = plan.fail (.notDates x) := by
  rw [overTime, hx]
  simp only [hdate]
  rfl

theorem overTime_of_no_series (hx : plan.xKey.or d.dateAxis? = some x)
    (hdate : d.isDateColumn x = true) (hseries : plan.drawnSeries d = []) :
    plan.overTime kind d options = .ok none := by
  rw [overTime, hx]
  simp only [hdate, hseries]
  rfl

theorem exists_overTime_eq (hx : plan.xKey.or d.dateAxis? = some x)
    (hdate : d.isDateColumn x = true) (hseries : plan.drawnSeries d ≠ []) :
    ∃ chart, plan.overTime kind d options = .ok (some chart) := by
  obtain ⟨dates, hdates⟩ := Dataset.isDateColumn_iff.mp hdate
  exact ⟨_, overTime_of_dates hx hdates hseries kind options⟩

end OverTime

/-- The ways in which a chart over time ends, in the order of the checks. -/
inductive OverTimeCases (plan : ChartPlan) (d : Dataset) :
    Except Error (Option Chart) → Prop where
  | noTime (hx : plan.xKey.or d.dateAxis? = none) :
      OverTimeCases plan d (.ok none)
  | notDates {x : String} (hx : plan.xKey.or d.dateAxis? = some x)
      (hdate : d.isDateColumn x = false) :
      OverTimeCases plan d
        (.error (.chart plan.title (ChartFault.notDates x).reason))
  | noSeries {x : String} (hx : plan.xKey.or d.dateAxis? = some x)
      (hdate : d.isDateColumn x = true) (hseries : plan.drawnSeries d = []) :
      OverTimeCases plan d (.ok none)
  | drawn {x : String} (hx : plan.xKey.or d.dateAxis? = some x)
      (hdate : d.isDateColumn x = true) (hseries : plan.drawnSeries d ≠ [])
      (chart : Chart) :
      OverTimeCases plan d (.ok (some chart))

theorem overTime_cases (plan : ChartPlan) (kind : String) (d : Dataset)
    (options : ChartOptions) :
    plan.OverTimeCases d (plan.overTime kind d options) := by
  cases hx : plan.xKey.or d.dateAxis? with
  | none =>
      rw [overTime_of_no_time hx]
      exact .noTime hx
  | some x =>
      cases hdate : d.isDateColumn x with
      | false =>
          rw [overTime_of_not_dates hx hdate]
          exact .notDates hx hdate
      | true =>
          by_cases hseries : plan.drawnSeries d = []
          · rw [overTime_of_no_series hx hdate hseries]
            exact .noSeries hx hdate hseries
          · obtain ⟨chart, hchart⟩ :=
              exists_overTime_eq hx hdate hseries
            rw [hchart]
            exact .drawn hx hdate hseries chart

theorem failsAs_overTime (plan : ChartPlan) (kind : String) (d : Dataset)
    (options : ChartOptions) :
    plan.FailsAs (plan.overTime kind d options) := by
  have hcases := plan.overTime_cases kind d options
  generalize plan.overTime kind d options = r at hcases ⊢
  cases hcases with
  | noTime => exact failsAs_ok _
  | notDates => exact failsAs_fail _
  | noSeries => exact failsAs_ok _
  | drawn => exact failsAs_ok _

/-! ## Bars and compositions -/

def ofColumns (plan : ChartPlan) (d : Dataset) (first second : Option String)
    (firstName secondName : String)
    (draw : Dataset.Column → Dataset.Column → Chart) : Except Error Chart := do
  let (a, b) ← plan.bothKeys first second firstName secondName
  let a ← plan.columnOf d a
  let b ← plan.measureOf d b
  return draw a b

def drawBars (plan : ChartPlan) (options : ChartOptions)
    (x y : Dataset.Column) : Chart where
  kind := "bar"
  title := plan.title
  rows := (largest (plan.barCount options)
    (Dataset.groups x.values y.values)).map (groupRow x.name y.name)
  xKey := some x.name
  yKey := some y.name

def drawComposition (plan : ChartPlan) (kind : String)
    (category value : Dataset.Column) : Chart where
  kind := kind
  title := plan.title
  rows := (Dataset.groups category.values value.values).map
    (groupRow "name" "value")
  categoryKey := some "name"
  valueKey := some "value"

theorem bars_eq (plan : ChartPlan) (d : Dataset) (options : ChartOptions) :
    plan.bars d options = plan.ofColumns d plan.xKey plan.yKey "xKey" "yKey"
      (plan.drawBars options) :=
  rfl

theorem composition_eq (plan : ChartPlan) (kind : String) (d : Dataset) :
    plan.composition kind d = plan.ofColumns d plan.categoryKey plan.valueKey
      "categoryKey" "valueKey" (plan.drawComposition kind) :=
  rfl

theorem columnOf_eq_ok_iff {name : String} {c : Dataset.Column} :
    plan.columnOf d name = .ok c ↔ d.column? name = some c := by
  unfold columnOf
  cases d.column? name <;> simp [fail]

theorem measureOf_eq_ok_iff {name : String} {c : Dataset.Column} :
    plan.measureOf d name = .ok c ↔
      d.column? name = some c ∧ isMeasure c.values = true := by
  unfold measureOf
  rw [bind_eq_ok]
  simp only [columnOf_eq_ok_iff]
  constructor
  · rintro ⟨c', hc', h⟩
    split at h
    · rename_i hmeasure
      cases h
      exact ⟨hc', hmeasure⟩
    · cases h
  · rintro ⟨hc, hmeasure⟩
    refine ⟨c, hc, ?_⟩
    rw [if_pos hmeasure]
    rfl

theorem bothKeys_eq_ok_iff {first second : Option String}
    {firstName secondName : String} {p : String × String} :
    plan.bothKeys first second firstName secondName = .ok p ↔
      first = some p.1 ∧ second = some p.2 := by
  unfold bothKeys
  cases first <;> cases second <;> simp [fail, Prod.ext_iff]

def Summable (values : Values) : Prop :=
  (∃ v, values = .numbers v) ∨
    ∃ cells, values = .texts cells ∧
      ∃ cell ∈ cells, ∃ x, cell.plainNumber? = some x

theorem isMeasure_iff {values : Values} :
    isMeasure values = true ↔ Summable values := by
  unfold Summable
  cases values <;> simp [isMeasure, Option.isSome_iff_exists]

section OfColumns

variable {first second : Option String} {firstName secondName : String}
  {draw : Dataset.Column → Dataset.Column → Chart}

theorem failsAs_columnOf (name : String) :
    plan.FailsAs (plan.columnOf d name) := by
  unfold columnOf
  split
  · exact failsAs_ok _
  · exact failsAs_fail _

private theorem failsAs_measureOf (name : String) :
    plan.FailsAs (plan.measureOf d name) := by
  unfold measureOf
  apply (failsAs_columnOf name).bind
  intro c _
  split
  · exact failsAs_ok _
  · exact failsAs_fail _

theorem failsAs_ofColumns :
    plan.FailsAs
      (plan.ofColumns d first second firstName secondName draw) := by
  have hkeys : plan.FailsAs
      (plan.bothKeys first second firstName secondName) := by
    unfold bothKeys
    split
    · exact failsAs_ok _
    · exact failsAs_fail _
  unfold ofColumns
  apply hkeys.bind
  intro p _
  apply (failsAs_columnOf p.1).bind
  intro a _
  apply (failsAs_measureOf p.2).bind
  intro b _
  exact failsAs_ok _

theorem map_ofColumns_eq_ok_iff {chart : Chart} :
    (plan.ofColumns d first second firstName secondName draw).map some =
        .ok (some chart) ↔
      ∃ a b, first.bind d.column? = some a ∧
        second.bind d.column? = some b ∧ Summable b.values ∧
        draw a b = chart := by
  unfold ofColumns
  simp only [Option.bind_eq_some_iff, ← isMeasure_iff]
  constructor
  · intro h
    obtain ⟨chart', h, hchart⟩ := map_eq_ok.mp h
    obtain ⟨⟨a, b⟩, hkeys, h⟩ := bind_eq_ok.mp h
    obtain ⟨ca, hca, h⟩ := bind_eq_ok.mp h
    obtain ⟨cb, hcb, h⟩ := bind_eq_ok.mp h
    obtain ⟨ha, hb⟩ := bothKeys_eq_ok_iff.mp hkeys
    obtain ⟨hcb, hmeasure⟩ := measureOf_eq_ok_iff.mp hcb
    cases hchart
    cases h
    exact ⟨ca, cb, ⟨a, ha, columnOf_eq_ok_iff.mp hca⟩, ⟨b, hb, hcb⟩,
      hmeasure, rfl⟩
  · rintro ⟨ca, cb, ⟨a, ha, hca⟩, ⟨b, hb, hcb⟩, hmeasure, rfl⟩
    have hkeys := (@bothKeys_eq_ok_iff plan first second firstName secondName
      (a, b)).mpr ⟨ha, hb⟩
    exact map_eq_ok.mpr ⟨_, bind_eq_ok.mpr ⟨_, hkeys, bind_eq_ok.mpr
      ⟨ca, columnOf_eq_ok_iff.mpr hca, bind_eq_ok.mpr
        ⟨cb, measureOf_eq_ok_iff.mpr ⟨hcb, hmeasure⟩, rfl⟩⟩⟩, rfl⟩

end OfColumns

/-! ## Families of kinds -/

def Family.kinds : Family → List String
  | overTime => ["line", "area"]
  | bars => ["bar", "stacked_bar"]
  | composition => ["pie", "donut"]

theorem Family.ofKind?_eq_some_iff {kind : String} {family : Family} :
    ofKind? kind = some family ↔ kind ∈ family.kinds := by
  unfold ofKind?
  split
  · rename_i h
    rcases h with rfl | rfl <;> cases family <;> simp [kinds]
  · split
    · rename_i h
      rcases h with rfl | rfl <;> cases family <;> simp [kinds]
    · split
      · rename_i h
        rcases h with rfl | rfl <;> cases family <;> simp [kinds]
      · cases family <;> simp_all [kinds]

def IsOf (plan : ChartPlan) (family : Family) : Prop :=
  Text.lower (Text.trimmed plan.kind) ∈ family.kinds

theorem isOf_cases (plan : ChartPlan) :
    plan.IsOf .overTime ∨ plan.IsOf .bars ∨ plan.IsOf .composition ∨
      Family.ofKind? (Text.lower (Text.trimmed plan.kind)) = none := by
  cases h : Family.ofKind? (Text.lower (Text.trimmed plan.kind)) with
  | none => simp
  | some family =>
      have hkind := Family.ofKind?_eq_some_iff.mp h
      cases family with
      | overTime => exact .inl hkind
      | bars => exact .inr (.inl hkind)
      | composition => exact .inr (.inr (.inl hkind))

theorem chart?_of_overTime (h : plan.IsOf .overTime) :
    plan.chart? d options =
      plan.overTime (Text.lower (Text.trimmed plan.kind)) d options :=
  chart?_eq_overTime (by simpa [IsOf, Family.kinds] using h) d options

theorem chart?_of_bars (h : plan.IsOf .bars) :
    plan.chart? d options = (plan.ofColumns d plan.xKey plan.yKey "xKey"
      "yKey" (plan.drawBars options)).map some := by
  unfold chart?
  dsimp only
  rw [Family.ofKind?_eq_some_iff.mpr h, ← bars_eq]

theorem chart?_of_composition (h : plan.IsOf .composition) :
    plan.chart? d options = (plan.ofColumns d plan.categoryKey plan.valueKey
      "categoryKey" "valueKey" (plan.drawComposition
        (Text.lower (Text.trimmed plan.kind)))).map some := by
  unfold chart?
  dsimp only
  rw [Family.ofKind?_eq_some_iff.mpr h, ← composition_eq]

section Columns

variable {a b : Dataset.Column}

theorem chart?_eq_drawBars (hkind : plan.IsOf .bars)
    (hx : plan.xKey.bind d.column? = some a)
    (hy : plan.yKey.bind d.column? = some b) (hsummable : Summable b.values) :
    plan.chart? d options = .ok (some (plan.drawBars options a b)) := by
  rw [chart?_of_bars hkind]
  exact map_ofColumns_eq_ok_iff.mpr ⟨a, b, hx, hy, hsummable, rfl⟩

theorem chart?_eq_drawComposition (hkind : plan.IsOf .composition)
    (hcategory : plan.categoryKey.bind d.column? = some a)
    (hvalue : plan.valueKey.bind d.column? = some b)
    (hsummable : Summable b.values) :
    plan.chart? d options = .ok (some (plan.drawComposition
      (Text.lower (Text.trimmed plan.kind)) a b)) := by
  rw [chart?_of_composition hkind]
  exact map_ofColumns_eq_ok_iff.mpr
    ⟨a, b, hcategory, hvalue, hsummable, rfl⟩

end Columns

theorem chart?_of_unsupported
    (h : Family.ofKind? (Text.lower (Text.trimmed plan.kind)) = none) :
    plan.chart? d options =
      plan.fail (.unsupported (Text.lower (Text.trimmed plan.kind))) := by
  unfold chart?
  dsimp only
  rw [h]

/-! ## Outcomes -/

theorem failsAs_chart? (plan : ChartPlan) (d : Dataset)
    (options : ChartOptions) : plan.FailsAs (plan.chart? d options) := by
  rcases plan.isOf_cases with h | h | h | h
  · rw [chart?_of_overTime h]
    exact plan.failsAs_overTime _ d options
  · rw [chart?_of_bars h]
    exact failsAs_ofColumns.map some
  · rw [chart?_of_composition h]
    exact failsAs_ofColumns.map some
  · rw [chart?_of_unsupported h]
    exact failsAs_fail _

theorem chart?_ne_ok_none (h : plan.IsOf .bars ∨ plan.IsOf .composition) :
    plan.chart? d options ≠ .ok none := by
  intro hchart
  rcases h with h | h
  · rw [chart?_of_bars h] at hchart
    obtain ⟨_, -, hsome⟩ := map_eq_ok.mp hchart
    cases hsome
  · rw [chart?_of_composition h] at hchart
    obtain ⟨_, -, hsome⟩ := map_eq_ok.mp hchart
    cases hsome

/-- The plan of a chart over time that has no time or no series to show. -/
inductive Skipped (plan : ChartPlan) (d : Dataset) : Prop where
  | noTime (hkind : plan.IsOf .overTime) (hx : plan.xKey = none)
      (haxis : d.dateAxis? = none)
  | noSeries {x : String} (hkind : plan.IsOf .overTime)
      (hx : plan.xKey.or d.dateAxis? = some x)
      (hdate : ∃ c ∈ d.columns, c.name = x ∧ c.values.areDates = true)
      (hseries : ∀ s ∈ plan.series.getD [], ∀ c ∈ d.columns, c.name ≠ s.key)

inductive Drawn (plan : ChartPlan) (d : Dataset) : Prop where
  | overTime {x : String} (hkind : plan.IsOf .overTime)
      (hx : plan.xKey.or d.dateAxis? = some x)
      (hdate : ∃ c ∈ d.columns, c.name = x ∧ c.values.areDates = true)
      (hseries : ∃ s ∈ plan.series.getD [], ∃ c ∈ d.columns, c.name = s.key)
  | bars {x y : String} (hkind : plan.IsOf .bars) (hx : plan.xKey = some x)
      (hy : plan.yKey = some y) (hcolumn : ∃ c ∈ d.columns, c.name = x)
      (hvalues : ∃ c ∈ d.columns, c.name = y ∧ Summable c.values)
  | composition {category value : String} (hkind : plan.IsOf .composition)
      (hcategory : plan.categoryKey = some category)
      (hvalue : plan.valueKey = some value)
      (hcolumn : ∃ c ∈ d.columns, c.name = category)
      (hvalues : ∃ c ∈ d.columns, c.name = value ∧ Summable c.values)

section Outcomes

variable (hnames : d.columnNames.Nodup)

include hnames

theorem chart?_eq_ok_none_iff :
    plan.chart? d options = .ok none ↔ plan.Skipped d := by
  constructor
  · intro h
    rcases plan.isOf_cases with hkind | hkind | hkind | hkind
    · have hcases := plan.overTime_cases
        (Text.lower (Text.trimmed plan.kind)) d options
      rw [← chart?_of_overTime hkind, h] at hcases
      cases hcases with
      | noTime hx =>
          obtain ⟨hkey, haxis⟩ := Option.or_eq_none_iff.mp hx
          exact .noTime hkind hkey haxis
      | noSeries hx hdate hseries =>
          apply Skipped.noSeries hkind hx
          · exact (Dataset.isDateColumn_iff_exists hnames).mp hdate
          · intro s hs c hc hname
            exact drawnSeries_ne_nil_iff.mpr ⟨s, hs, c, hc, hname⟩ hseries
    · exact absurd h (chart?_ne_ok_none (.inl hkind))
    · exact absurd h (chart?_ne_ok_none (.inr hkind))
    · rw [chart?_of_unsupported hkind] at h
      cases h
  · intro h
    cases h with
    | noTime hkind hx haxis =>
        rw [chart?_of_overTime hkind]
        exact overTime_of_no_time (by rw [hx, haxis]; rfl)
    | noSeries hkind hx hdate hseries =>
        rw [chart?_of_overTime hkind]
        apply overTime_of_no_series hx
        · exact (Dataset.isDateColumn_iff_exists hnames).mpr hdate
        · by_contra hne
          obtain ⟨s, hs, c, hc, hname⟩ := drawnSeries_ne_nil_iff.mp hne
          exact hseries s hs c hc hname

private theorem exists_ofColumns_eq_ok_iff_exists {first second : Option String}
    {firstName secondName : String}
    {draw : Dataset.Column → Dataset.Column → Chart} :
    (∃ chart, (plan.ofColumns d first second firstName secondName draw).map
        some = .ok (some chart)) ↔
      ∃ a b, first = some a ∧ second = some b ∧
        (∃ c ∈ d.columns, c.name = a) ∧
        ∃ c ∈ d.columns, c.name = b ∧ Summable c.values := by
  simp only [map_ofColumns_eq_ok_iff, Option.bind_eq_some_iff,
    Dataset.column?_eq_some_iff hnames]
  constructor
  · rintro ⟨chart, ca, cb, ⟨a, ha, hca⟩, ⟨b, hb, hcb, hname⟩, hvalues, -⟩
    exact ⟨a, b, ha, hb, ⟨ca, hca⟩, cb, hcb, hname, hvalues⟩
  · rintro ⟨a, b, ha, hb, ⟨ca, hca⟩, cb, hcb, hname, hvalues⟩
    exact ⟨_, ca, cb, ⟨a, ha, hca⟩, ⟨b, hb, hcb, hname⟩, hvalues, rfl⟩

theorem exists_chart?_eq_ok_some_iff :
    (∃ chart, plan.chart? d options = .ok (some chart)) ↔ plan.Drawn d := by
  constructor
  · rintro ⟨chart, h⟩
    rcases plan.isOf_cases with hkind | hkind | hkind | hkind
    · rw [chart?_of_overTime hkind] at h
      obtain ⟨x, dates, hx, hdates, hseries⟩ := overTime_eq_some h
      apply Drawn.overTime hkind hx
      · exact (Dataset.isDateColumn_iff_exists hnames).mp
          (Dataset.isDateColumn_iff.mpr ⟨dates, hdates⟩)
      · exact drawnSeries_ne_nil_iff.mp hseries
    · rw [chart?_of_bars hkind] at h
      obtain ⟨x, y, hx, hy, hcolumn, hvalues⟩ :=
        (exists_ofColumns_eq_ok_iff_exists hnames).mp ⟨chart, h⟩
      exact .bars hkind hx hy hcolumn hvalues
    · rw [chart?_of_composition hkind] at h
      obtain ⟨x, y, hx, hy, hcolumn, hvalues⟩ :=
        (exists_ofColumns_eq_ok_iff_exists hnames).mp ⟨chart, h⟩
      exact .composition hkind hx hy hcolumn hvalues
    · rw [chart?_of_unsupported hkind] at h
      cases h
  · intro h
    cases h with
    | overTime hkind hx hdate hseries =>
        rw [chart?_of_overTime hkind]
        apply exists_overTime_eq hx
        · exact (Dataset.isDateColumn_iff_exists hnames).mpr hdate
        · exact drawnSeries_ne_nil_iff.mpr hseries
    | bars hkind hx hy hcolumn hvalues =>
        rw [chart?_of_bars hkind]
        exact (exists_ofColumns_eq_ok_iff_exists hnames).mpr
          ⟨_, _, hx, hy, hcolumn, hvalues⟩
    | composition hkind hx hy hcolumn hvalues =>
        rw [chart?_of_composition hkind]
        exact (exists_ofColumns_eq_ok_iff_exists hnames).mpr
          ⟨_, _, hx, hy, hcolumn, hvalues⟩

end Outcomes

/--
A plan fails with its own title and for a known reason, never with a failure of
the sums.  Only charts over time are skipped.  Where the names of columns are
distinct, the plans that are skipped and those that are drawn are known from the
plan and the columns alone; all others fail.
-/
theorem chart?_outcomes (plan : ChartPlan) (d : Dataset)
    (options : ChartOptions) :
    (∀ e, plan.chart? d options = .error e →
      ∃ fault : ChartFault, e = .chart plan.title fault.reason) ∧
    (plan.IsOf .bars ∨ plan.IsOf .composition →
      plan.chart? d options ≠ .ok none) ∧
    (d.columnNames.Nodup →
      (plan.chart? d options = .ok none ↔ plan.Skipped d) ∧
      ((∃ chart, plan.chart? d options = .ok (some chart)) ↔
        plan.Drawn d)) :=
  ⟨plan.failsAs_chart? d options, chart?_ne_ok_none, fun hnames =>
    ⟨chart?_eq_ok_none_iff hnames, exists_chart?_eq_ok_some_iff hnames⟩⟩

theorem chart?_outcomes_bar :
    let d : Dataset := ⟨[⟨"loja", .category, .texts [.text "A", .text "B"]⟩,
      ⟨"receita", .string, .texts [.text "12.5", .text "R$ 3"]⟩,
      ⟨"dia", .date, .dates [some (.ofDate ⟨2024, 1, 5, by decide⟩), none]⟩], 2⟩
    let bars : ChartPlan := {
      kind := " Stacked_BAR", title := "T", xKey := some "loja"
      yKey := some "receita" }
    let lines : ChartPlan := {
      kind := "line", title := "T", series := some [⟨"lucro", "L", none⟩] }
    (∃ chart, bars.chart? d {} = .ok (some chart)) ∧
      bars.chart? d {} ≠ .ok none ∧ lines.chart? d {} = .ok none := by
  intro d bars lines
  have hbars : bars.IsOf .bars := by
    unfold IsOf
    decide
  have hlines : lines.IsOf .overTime := by
    unfold IsOf
    decide
  have hnames : d.columnNames.Nodup := by decide
  obtain ⟨-, hnotSkipped, hiff⟩ := chart?_outcomes bars d {}
  obtain ⟨-, -, hiff'⟩ := chart?_outcomes lines d {}
  refine ⟨(hiff hnames).2.mpr ?_, hnotSkipped (.inl hbars),
    (hiff' hnames).1.mpr ?_⟩
  · apply Drawn.bars hbars rfl rfl
    · exact ⟨⟨"loja", .category, .texts [.text "A", .text "B"]⟩,
        by simp [d], rfl⟩
    · exact ⟨⟨"receita", .string, .texts [.text "12.5", .text "R$ 3"]⟩,
        by simp [d], rfl, .inr ⟨_, rfl, .text "12.5", by simp, 12.5,
          by decide +kernel⟩⟩
  · apply Skipped.noSeries hlines (x := "dia") rfl
    · exact ⟨⟨"dia", .date,
        .dates [some (.ofDate ⟨2024, 1, 5, by decide⟩), none]⟩,
        by simp [d], rfl, rfl⟩
    · intro s hs c hc
      obtain rfl := List.mem_singleton.mp hs
      fin_cases hc <;> decide

end Chartbook.ChartPlan
