import Chartbook.Dashboard.Document
import Chartbook.Proofs.Plan.Codec

/-!
# Documents as they are read

A reader of documents knows the data of a chart as maps from keys to any values.
It accepts what is written for a document exactly if the values of all KPIs are
numbers there, and then it has the same document.
-/

namespace Chartbook

open Json

/-! ## Reading -/

namespace Json

def number? : Json → Option Float
  | number (.natural n) => some (Chartbook.Number.Decimal.toFloat ⟨n, 0⟩ false)
  | number (.negative n) => some (Chartbook.Number.Decimal.toFloat ⟨n, 0⟩ true)
  | number (.real x) => if x.isFinite then some x else none
  | _ => none

/-- The members of a map to any values, by ascending key; the last of repeated
members counts. -/
def map? : Json → Option (List (String × Json))
  | object members =>
      if membersSound members then
        some ((lastOfMembers [] members).mergeSort fun a b => a.1 ≤ b.1)
      else none
  | _ => none

end Json

def Kpi.ofJson? (v : Json) : Option Kpi :=
  match v.fields? ["name", "value", "unit"] 2 with
  | some [name, value, unit] => do
      some ⟨← required text? name, ← required number? value,
        ← optional text? unit⟩
  | _ => none

def Insight.ofJson? (v : Json) : Option Insight :=
  match v.fields? ["type", "title", "message"] 3 with
  | some [kind, title, message] => do
      some ⟨← required text? kind, ← required text? title,
        ← required text? message⟩
  | _ => none

structure Chart.Record where
  kind : String
  title : String
  data : List (List (String × Json))
  xKey : Option String
  yKey : Option String
  series : Option (List Series)
  categoryKey : Option String
  valueKey : Option String

def Chart.Record.ofJson? (v : Json) : Option Chart.Record :=
  match v.fields? ["type", "title", "data", "xKey", "yKey", "series",
      "categoryKey", "valueKey"] 3 with
  | some [kind, title, data, xKey, yKey, series, categoryKey, valueKey] => do
      some ⟨← required text? kind, ← required text? title,
        ← required (list? map?) data, ← optional text? xKey,
        ← optional text? yKey, ← optional (list? Series.ofJson?) series,
        ← optional text? categoryKey, ← optional text? valueKey⟩
  | _ => none

def timeGrain? (v : Json) : Option String :=
  match v.fields? ["time_grain"] 1 with
  | some [grain] => required text? grain
  | _ => none

structure Document.Record where
  datasetId : String
  kpis : List Kpi
  charts : List Chart.Record
  insights : List Insight
  timeGrain : Option String
  version : String

def Document.Record.ofJson? (v : Json) : Option Document.Record :=
  match v.fields? ["dataset_id", "kpis", "charts", "insights", "filters",
      "version"] 6 with
  | some [datasetId, kpis, charts, insights, filters, version] => do
      some ⟨← required text? datasetId, ← required (list? Kpi.ofJson?) kpis,
        ← required (list? Chart.Record.ofJson?) charts,
        ← required (list? Insight.ofJson?) insights,
        ← optional timeGrain? filters, ← required text? version⟩
  | _ => none

/-! ## What a document is to its readers -/

def Row.record (reread : Float → Float) (r : Row) : List (String × Json) :=
  r.sorted.map fun m => (m.1, m.2.toJson.written reread)

def Chart.record (reread : Float → Float) (c : Chart) : Chart.Record where
  kind := c.kind
  title := c.title
  data := c.rows.map (Row.record reread)
  xKey := c.xKey
  yKey := c.yKey
  series := c.series
  categoryKey := c.categoryKey
  valueKey := c.valueKey

/-- What a document is to its readers, who may read another number for one. -/
def Document.record (d : Document) (reread : Float → Float := id) :
    Document.Record where
  datasetId := d.datasetId
  kpis := d.kpis.map fun k => { k with value := reread k.value }
  charts := d.charts.map (Chart.record reread)
  insights := d.insights
  timeGrain := d.timeGrain
  version := d.version

/-- A number of a document: the value of a KPI, or one in the data of a
chart. -/
def Document.HasNumber (d : Document) (x : Float) : Prop :=
  (∃ k ∈ d.kpis, k.value = x) ∨
    ∃ c ∈ d.charts, ∃ r ∈ c.rows, ∃ key, (key, .number x) ∈ r.entries

theorem Datum.written_congr {reread : Float → Float} {v : Datum}
    (h : ∀ x, v = .number x → reread x = x) :
    v.toJson.written reread = v.toJson.written id := by
  cases v with
  | text s => rfl
  | number x => rw [toJson, real, written, written, h x rfl, id]

theorem Row.record_congr {reread : Float → Float} {r : Row}
    (h : ∀ key x, (key, .number x) ∈ r.entries → reread x = x) :
    r.record reread = r.record id := by
  refine List.map_congr_left fun m hm => ?_
  obtain ⟨key, v⟩ := m
  have hentry := (List.mergeSort_perm ..).mem_iff.mp hm
  have hvalue := Datum.written_congr (v := v) fun x hx =>
    h key x (hx ▸ hentry)
  rw [hvalue]

theorem Document.record_congr {d : Document} {reread : Float → Float}
    (h : ∀ x, d.HasNumber x → reread x = x) :
    d.record reread = d.record := by
  have hkpis := List.map_congr_left (l := d.kpis)
    (f := fun k => { k with value := reread k.value })
    (g := fun k => { k with value := id k.value }) fun k hk => by
      rw [h k.value (.inl ⟨k, hk, rfl⟩), id]
  have hcharts := List.map_congr_left (l := d.charts)
    (f := Chart.record reread) (g := Chart.record id) fun c hc => by
      have hrows := List.map_congr_left (l := c.rows)
        (f := Row.record reread) (g := Row.record id) fun r hr =>
          Row.record_congr fun key x hx => h x (.inr ⟨c, hc, r, hr, key, hx⟩)
      rw [Chart.record, Chart.record, hrows]
  rw [record, record, hkpis, hcharts]

/-! ## Reading what was written -/

section Written

variable {reread : Float → Float}

theorem fields?_written {members : List (String × Json)}
    (h : (members.map Prod.fst).Nodup) (names : List String) (least : Nat) :
    ((object members).written reread).fields? names least =
      some (names.map fun name =>
        (members.lookup name).map (written reread)) := by
  have hkeys : (members.map fun m => (m.1, m.2.written reread)).map Prod.fst =
      members.map Prod.fst := by
    rw [List.map_map]
    rfl
  rw [written, writtenMembers_eq_map, fields?_of_nodup (hkeys ▸ h)]
  simp only [lookup_map_snd]

@[simp] theorem written_text (s : String) :
    (text s).written reread = text s := rfl

@[simp] theorem written_comp_text : written reread ∘ text = text := rfl

@[simp] theorem written_array_map {α : Type} (write : α → Json)
    (as : List α) :
    (array (as.map write)).written reread =
      array (as.map fun a => (write a).written reread) := by
  rw [written, writtenItems_eq_map, List.map_map]
  rfl

@[simp] theorem optional_map_text (s : Option String) :
    optional text? (s.map text) = some s := by
  cases s <;> rfl

theorem Insight.ofJson?_written (i : Insight) :
    ofJson? (i.toJson.written reread) = some i := by
  rw [ofJson?, toJson, fields?_written (by simp)]
  simp [List.lookup_cons, required, text?]

theorem list?_series_written (series : Option (List Series)) :
    optional (list? Series.ofJson?)
        (series.map (written reread ∘ fun ss =>
          array (ss.map Series.toJson))) =
      some series := by
  cases series with
  | none => rfl
  | some ss =>
      have hseries (s : Series) :
          Series.ofJson? (s.toJson.written reread) = some s := by
        rw [s.isExact_toJson.written_eq, Series.ofJson?_toJson]
      have hwritten := @written_array_map reread _ Series.toJson ss
      change (list? Series.ofJson?
        ((array (ss.map Series.toJson)).written reread)).map some = _
      rw [hwritten, list?_written hseries]
      rfl

theorem optional_timeGrain_written (grain : Option String) :
    optional timeGrain? (grain.map (written reread ∘ fun g =>
      object [("time_grain", text g)])) = some grain := by
  cases grain <;> rfl

/-! ## Numbers -/

variable (hreread : ∀ x : Float, x.isFinite = true →
  (reread x).isFinite = true)
include hreread

theorem number?_written (x : Float) :
    number? ((real x).written reread) =
      if x.isFinite then some (reread x) else none := by
  rw [real, written]
  split
  · rename_i hx
    exact if_pos (hreread x hx)
  · rfl

theorem Kpi.ofJson?_written (k : Kpi) :
    ofJson? (k.toJson.written reread) =
      if k.value.isFinite then some { k with value := reread k.value }
      else none := by
  obtain ⟨name, value, unit⟩ := k
  have hkeys := keys_toList_map_sublist "unit" text unit
  rw [ofJson?, toJson, fields?_written]
  · simp [List.lookup_cons, lookup_toList_map, required, text?,
      number?_written hreread]
    split <;> simp
  · rw [List.map_append]
    exact ((List.Sublist.refl _).append hkeys).nodup (by simp)

theorem list?_kpis_written (kpis : List Kpi) :
    list? Kpi.ofJson? (array (kpis.map fun k => k.toJson.written reread)) =
      if ∀ k ∈ kpis, k.value.isFinite = true
      then some (kpis.map fun k => { k with value := reread k.value })
      else none := by
  split
  · rename_i hfinite
    exact list?_map fun k hk =>
      (Kpi.ofJson?_written hreread k).trans (if_pos (hfinite k hk))
  · rename_i hfinite
    push Not at hfinite
    obtain ⟨k, hk, hinfinite⟩ := hfinite
    exact list?_eq_none (List.mem_map_of_mem hk)
      ((Kpi.ofJson?_written hreread k).trans (if_neg hinfinite))

/-! ## The data of charts -/

omit hreread in
theorem nodup_record (r : Row) : ((r.record reread).map Prod.fst).Nodup := by
  have hkeys : (r.record reread).map Prod.fst = r.sorted.map Prod.fst := by
    rw [Row.record, List.map_map]
    rfl
  rw [hkeys, Keyed.sorted, ((List.mergeSort_perm ..).map Prod.fst).nodup_iff]
  exact r.distinct

omit hreread in
private theorem pairwise_record (r : Row) :
    (r.record reread).Pairwise fun a b => decide (a.1 ≤ b.1) = true := by
  rw [Row.record, List.pairwise_map]
  apply List.pairwise_mergeSort
  · intro a b c hab hbc
    simp only [decide_eq_true_eq] at hab hbc ⊢
    exact le_trans hab hbc
  · intro a b
    simpa using le_total a.1 b.1

theorem Datum.written_toJson (x : Datum) :
    (x.toJson.written reread).isSound = true ∧
      lastMembers (x.toJson.written reread) = x.toJson.written reread := by
  cases x with
  | text s => exact ⟨rfl, rfl⟩
  | number x =>
      rw [toJson, real, written]
      split
      · rename_i hx
        exact ⟨hreread x hx, rfl⟩
      · exact ⟨rfl, rfl⟩

private theorem map?_written (r : Row) :
    map? (r.toJson.written reread) = some (r.record reread) := by
  have hwritten : r.toJson.written reread = object (r.record reread) := by
    rw [Row.toJson, written, writtenMembers_eq_map, List.map_map]
    rfl
  have hvalues : ∀ m ∈ r.record reread, m.2.isSound = true ∧
      lastMembers m.2 = m.2 := by
    intro m hm
    obtain ⟨entry, -, rfl⟩ := List.mem_map.mp hm
    exact Datum.written_toJson hreread entry.2
  have hsound := membersSound_iff.mpr fun m hm => (hvalues m hm).1
  have hlast : lastOfMembers [] (r.record reread) = r.record reread := by
    apply lastOfMembers_of_nodup (nodup_record r)
    exact fun m hm => (hvalues m hm).2
  rw [hwritten, map?, if_pos hsound, hlast]
  exact congrArg some (List.mergeSort_of_pairwise (pairwise_record r))

/-! ## Charts and documents -/

theorem Chart.Record.ofJson?_written (c : Chart) :
    ofJson? (c.toJson.written reread) = some (c.record reread) := by
  have hdata := list?_map fun r (_ : r ∈ c.rows) => map?_written hreread r
  rw [ofJson?, toJson, fields?_written]
  · simp [List.lookup_append, List.lookup_cons, lookup_toList_map, required,
      text?, hdata, list?_series_written]
    rfl
  · have hkeys : ["type", "title", "data", "xKey", "yKey", "series",
        "categoryKey", "valueKey"].Nodup := by decide
    simp only [List.map_append]
    refine List.Nodup.sublist ?_ hkeys
    exact ((((((List.Sublist.refl ["type", "title", "data"]).append
      (keys_toList_map_sublist "xKey" text c.xKey)).append
      (keys_toList_map_sublist "yKey" text c.yKey)).append
      (keys_toList_map_sublist "series" _ c.series)).append
      (keys_toList_map_sublist "categoryKey" text c.categoryKey)).append
      (keys_toList_map_sublist "valueKey" text c.valueKey))

theorem Document.Record.ofJson?_written (d : Document) :
    ofJson? (d.toJson.written reread) =
      if ∀ k ∈ d.kpis, k.value.isFinite = true then some (d.record reread)
      else none := by
  have hcharts := list?_map fun c (_ : c ∈ d.charts) =>
    Chart.Record.ofJson?_written hreread c
  have hinsights := @list?_written _ _ _
    (@Insight.ofJson?_written reread) d.insights
  rw [ofJson?, toJson, fields?_written]
  · simp only [List.lookup_append, List.lookup_cons, lookup_toList_map]
    simp [required, text?, list?_kpis_written hreread, hcharts, hinsights,
      optional_timeGrain_written]
    split <;> rfl
  · have hkeys : ["dataset_id", "kpis", "charts", "insights", "filters",
        "version"].Nodup := by decide
    simp only [List.map_append]
    refine List.Nodup.sublist ?_ hkeys
    exact ((List.Sublist.refl ["dataset_id", "kpis", "charts",
      "insights"]).append (keys_toList_map_sublist "filters" _
        d.timeGrain)).append (List.Sublist.refl ["version"])

end Written

/-! ## Documents in range -/

@[simp] theorem inRange_text (s : String) : (text s).InRange := trivial

@[simp] theorem inRange_real (x : Float) : (real x).InRange := trivial

theorem inRange_array_map {α : Type} {write : α → Json}
    (h : ∀ a, (write a).InRange) (as : List α) :
    (array (as.map write)).InRange := by
  apply itemsInRange_iff.mpr
  simpa using fun a _ => h a

theorem Datum.inRange_toJson (x : Datum) : x.toJson.InRange := by
  cases x <;> trivial

theorem Row.inRange_toJson (r : Row) : r.toJson.InRange := by
  apply membersInRange_iff.mpr
  simp only [List.forall_mem_map]
  exact fun m _ => m.2.inRange_toJson

theorem Kpi.inRange_toJson (k : Kpi) : k.toJson.InRange := by
  apply membersInRange_iff.mpr
  simp only [List.forall_mem_append, List.forall_mem_cons, List.forall_mem_map]
  simp

theorem Chart.inRange_toJson (c : Chart) : c.toJson.InRange := by
  have hdata := inRange_array_map Row.inRange_toJson c.rows
  have hseries :=
    inRange_array_map fun s : Series => s.isExact_toJson.inRange
  apply membersInRange_iff.mpr
  simp only [List.forall_mem_append, List.forall_mem_cons, List.forall_mem_map]
  simp [hdata, hseries]

theorem Insight.inRange_toJson (i : Insight) : i.toJson.InRange := by
  apply membersInRange_iff.mpr
  simp only [List.forall_mem_cons]
  simp

theorem Document.inRange_toJson (d : Document) : d.toJson.InRange := by
  have hkpis := inRange_array_map Kpi.inRange_toJson d.kpis
  have hcharts := inRange_array_map Chart.inRange_toJson d.charts
  have hinsights := inRange_array_map Insight.inRange_toJson d.insights
  have hgrain (g : String) : (object [("time_grain", text g)]).InRange :=
    membersInRange_iff.mpr (by simp)
  apply membersInRange_iff.mpr
  simp only [List.forall_mem_append, List.forall_mem_cons, List.forall_mem_map]
  simp [hkpis, hcharts, hinsights, hgrain]

end Chartbook
