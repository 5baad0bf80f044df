import Chartbook.Dashboard.Assembly
import Chartbook.Proofs.Dashboard.Policies
import Chartbook.Proofs.Dashboard.Record
import Chartbook.Proofs.Dataset.Normalization
import Chartbook.Proofs.Except
import Chartbook.Proofs.Json.QuickReading
import Chartbook.Proofs.Kpi.Finite
import Chartbook.Proofs.Table.QuotedImport

/-!
# Documents that read back

The text of a document is read as a document exactly if all its KPIs have finite
values.  They do if every number in the table has a moderate size; a cell that
shows infinity is a number, too, and its sum has no text.
-/

namespace Chartbook

/-! ## Tables of moderate numbers -/

/-- The numbers as which a cell may count, by the type of its column. -/
def Cell.CountsAs (c : Cell) (x : Float) : Prop :=
  c.number? = some x ∨ c.plainNumber? = some x

structure Table.IsModerate (t : Table) : Prop where
  size {c : Column} (hc : c ∈ t.columns) {cell : Cell} (hcell : cell ∈ c.cells)
    {x : Float} (hx : cell.CountsAs x) : Number.IsModerate x
  length : t.rowCount ≤ 2 ^ 52

theorem Values.StoredAs.exists_countsAs {dtype : Dtype} {cells : List Cell}
    {values : Values} {x : Float} (h : StoredAs dtype cells values)
    (hx : some x ∈ values.numeric) : ∃ cell ∈ cells, cell.CountsAs x := by
  cases h with
  | numeric | numbers =>
      obtain ⟨cell, hcell, hread⟩ := List.mem_map.mp hx
      exact ⟨cell, hcell, .inl hread⟩
  | dates =>
      obtain ⟨date, -, hnone⟩ := List.mem_map.mp hx
      contradiction
  | texts =>
      obtain ⟨cell, hcell, hread⟩ := List.mem_map.mp hx
      exact ⟨cell, hcell, .inr hread⟩

theorem Table.mem_cells_of_mem_nullPadded {t : Table} {c : Column} {cell : Cell}
    {x : Float} (hcell : cell ∈ t.nullPadded c) (hx : cell.CountsAs x) :
    cell ∈ c.cells := by
  rcases List.mem_append.mp hcell with hcell | hcell
  · exact hcell
  · rw [List.eq_of_mem_replicate hcell] at hx
    rcases hx with hx | hx <;> contradiction

theorem Table.IsModerate.normalize {t : Table} (h : t.IsModerate)
    (classes : List ColumnClass) :
    (t.normalize classes).dataset.IsModerate where
  size {typed} htyped x hx := by
    obtain ⟨c, hc, rfl⟩ := List.mem_map.mp htyped
    have hstored := Values.storedAs_typed (dtypeOf classes c.name)
      (c.padded t.rowCount)
    obtain ⟨cell, hcell, hcounts⟩ := hstored.exists_countsAs hx
    rw [padded_eq_nullPadded hc] at hcell
    exact h.size hc (mem_cells_of_mem_nullPadded hcell hcounts) hcounts
  length {typed} htyped := by
    obtain ⟨c, hc, rfl⟩ := List.mem_map.mp htyped
    have hlength := (faithfullyTyped_typedColumn classes hc).length
    exact hlength.trans_le h.length

/-! ## The KPIs of a dashboard -/

namespace Dataset

variable {d : Dataset} {id : String} {plan : Plan} {s : Settings}
  {o : Options} {version : String} {b : Build} {k : Kpi}

private theorem eq_tolerantBuild (h : d.dashboard id plan s o version = .ok b) :
    b = d.tolerantBuild id plan s o version := by
  cases hpolicy : s.policy with
  | skipFailed =>
      have hbuild := d.dashboard_skipFailed id plan s o version
      rw [← hpolicy, h] at hbuild
      exact Except.ok.inj hbuild
  | strict =>
      have hbuild := d.dashboard_strict id plan s o version
      rw [← hpolicy, h] at hbuild
      split at hbuild
      · exact Except.ok.inj hbuild
      · contradiction

private theorem exists_evaluate (h : d.dashboard id plan s o version = .ok b)
    (hk : k ∈ b.document.kpis) :
    ∃ p ∈ plan.kpis, d.evaluate p.expression = .ok k.value := by
  rw [eq_tolerantBuild h] at hk
  obtain ⟨p, hp, hresult⟩ := List.mem_filterMap.mp hk
  refine ⟨p, List.mem_of_mem_take hp, ?_⟩
  rw [toOption_map_some, kpi] at hresult
  cases hvalue : d.evaluate p.expression with
  | error e => simp [hvalue, Except.toOption] at hresult
  | ok x =>
      simp only [hvalue, Except.toOption, Option.some.injEq] at hresult
      rw [← hresult]

theorem isFinite_of_dashboard (hd : d.IsModerate)
    (h : d.dashboard id plan s o version = .ok b) :
    ∀ k ∈ b.document.kpis, k.value.isFinite = true := by
  intro k hk
  obtain ⟨p, -, hvalue⟩ := exists_evaluate h hk
  exact isFinite_of_evaluate hd hvalue

theorem dashboard_of_gatherKpis {plans : List KpiPlan} {kpis : List Kpi}
    (h : d.gatherKpis { kpis := plans } s = .ok (kpis, [])) (id : String)
    (o : Options) (version : String) :
    d.dashboard id { kpis := plans } s o version = .ok ⟨⟨id, kpis, [], [],
      d.dateAxis?.map fun _ => "month", version⟩, []⟩ := by
  simp only [dashboard, h, gatherCharts, List.take_nil, gather]
  rfl

end Dataset

/-! ## Documents as texts -/

namespace Document

def texts (d : Document) : List String :=
  [d.toJson.render, d.toJson.renderIndented]

def Record.read? (text : String) (rounding : Json.Rounding := .quick) :
    Option Record :=
  (Json.parse? text rounding).bind ofJson?

theorem read?_of_mem_texts {d : Document} {text : String} (h : text ∈ d.texts)
    (rounding : Json.Rounding) :
    Record.read? text rounding =
      if ∀ k ∈ d.kpis, k.value.isFinite = true
      then some (d.record rounding.reread) else none := by
  have hparse : Json.parse? text rounding =
      some (d.toJson.written rounding.reread) := by
    rcases List.mem_pair.mp h with rfl | rfl
    · rw [Json.parse?, Json.render, String.toList_ofList]
      exact Json.ofChars?_compact d.inRange_toJson rounding
    · rw [Json.parse?, Json.renderIndented, String.toList_ofList]
      exact Json.ofChars?_indented d.inRange_toJson rounding 0
  rw [Record.read?, hparse, Option.bind_some,
    Record.ofJson?_written fun _ => rounding.isFinite_reread]

end Document

theorem Json.number?_parse? (x : Float) (rounding : Rounding) :
    (parse? (real x).render rounding).bind number? =
      if x.isFinite then some (rounding.reread x) else none := by
  rw [parse?, render, String.toList_ofList,
    ofChars?_compact (inRange_real x), Option.bind_some,
    number?_written fun _ => rounding.isFinite_reread]

namespace Table

/--
If every number in a table has a moderate size, all KPIs of a dashboard over it
have finite values.  A finite value is written as a number, and the texts of the
document are read as a document exactly if all values are finite: the document
itself, but for its numbers, which are what the reader makes of their digits.
With correct rounding they are the same numbers.  The quick way keeps those that
have few digits, and turns none into infinity.
-/
theorem dashboard_readBack {t : Table} {classes : List ColumnClass}
    {id : String} {plan : Plan} {s : Settings} {o : Options} {version : String}
    {b : Build}
    (h : (t.normalize classes).dataset.dashboard id plan s o version = .ok b) :
    (t.IsModerate → ∀ k ∈ b.document.kpis, k.value.isFinite = true) ∧
    (∀ rounding, ∀ k ∈ b.document.kpis,
      (Json.parse? (Json.real k.value).render rounding).bind Json.number? =
        if k.value.isFinite then some (rounding.reread k.value) else none) ∧
    (∀ rounding, ∀ text ∈ b.document.texts,
      Document.Record.read? text rounding =
        if ∀ k ∈ b.document.kpis, k.value.isFinite = true
        then some (b.document.record rounding.reread) else none) ∧
    b.document.record Json.Rounding.nearest.reread = b.document.record ∧
    ((∀ x, b.document.HasNumber x → Json.IsShort x) →
      b.document.record Json.Rounding.quick.reread = b.document.record) := by
  refine ⟨fun ht => ?_, fun rounding k _ => ?_, fun rounding text htext => ?_,
    ?_, fun hshort => ?_⟩
  · exact Dataset.isFinite_of_dashboard (ht.normalize classes) h
  · exact Json.number?_parse? k.value rounding
  · exact Document.read?_of_mem_texts htext rounding
  · exact Document.record_congr fun x _ => Json.Rounding.nearest_reread x
  · exact Document.record_congr fun x hx =>
      Json.Rounding.quick_reread (hshort x hx)

theorem dashboard_readBack_receita :
    let t : Table := ⟨[⟨"receita", [.text "R$ 5,00", .null, .number 5]⟩]⟩
    let classes : List ColumnClass := [{ name := "receita", dtype := .number }]
    let plan : Plan := { kpis := [⟨"Total", "sum(receita)", none, none⟩] }
    t.IsModerate ∧
      ∃ b, (t.normalize classes).dataset.dashboard "ref" plan {} {} "v" =
          .ok b ∧
        b.document.kpis = [⟨"Total", 10, none⟩] ∧
        (∀ k ∈ b.document.kpis, k.value.isFinite = true) ∧
        (∀ x, b.document.HasNumber x → Json.IsShort x) ∧
        ∀ rounding, ∀ text ∈ b.document.texts,
          Document.Record.read? text rounding = some b.document.record := by
  intro t classes plan
  have hfive : Number.IsModerate 5 := by
    apply Number.isModerate_of_exponent <;> decide +kernel
  have hmoderate : t.IsModerate := by
    refine ⟨fun {c} hc {cell} hcell {x} hx => ?_, by decide⟩
    obtain rfl := List.mem_singleton.mp hc
    simp only [List.mem_cons, List.not_mem_nil, or_false] at hcell
    rcases hcell with rfl | rfl | rfl
    · have hnumber : (Cell.text "R$ 5,00").number? = some 5 := by
        decide +kernel
      have hplain : (Cell.text "R$ 5,00").plainNumber? = none := by
        decide +kernel
      rw [Cell.CountsAs, hnumber, hplain] at hx
      rcases hx with hx | hx <;> cases hx
      exact hfive
    · rcases hx with hx | hx <;> cases hx
    · rcases hx with hx | hx <;> cases hx <;> exact hfive
  have hvalue : (t.normalize classes).dataset.evaluate "sum(receita)" =
      .ok 10 := by
    decide +kernel
  have hkpis : (t.normalize classes).dataset.gatherKpis plan {} =
      .ok ([⟨"Total", 10, none⟩], []) := by
    simp only [Dataset.gatherKpis, plan, List.take, gather, Dataset.kpi,
      hvalue]
    rfl
  have hbuild := Dataset.dashboard_of_gatherKpis hkpis "ref" {} "v"
  obtain ⟨hfinite, -, htexts, hnearest, hquick⟩ := dashboard_readBack hbuild
  have hten : Json.IsShort 10 := by
    unfold Json.IsShort
    decide +kernel
  have hshort {d : Document} (hkpis : d.kpis = [⟨"Total", 10, none⟩])
      (hcharts : d.charts = []) : ∀ x, d.HasNumber x → Json.IsShort x := by
    rintro x (⟨k, hk, rfl⟩ | ⟨c, hc, -⟩)
    · rw [hkpis] at hk
      obtain rfl := List.mem_singleton.mp hk
      exact hten
    · rw [hcharts] at hc
      contradiction
  refine ⟨hmoderate, _, hbuild, rfl, hfinite hmoderate, hshort rfl rfl, ?_⟩
  intro rounding text htext
  rw [htexts rounding text htext, if_pos (hfinite hmoderate)]
  cases rounding with
  | nearest => rw [hnearest]
  | quick => rw [hquick (hshort rfl rfl)]

def amounts : List ColumnClass := [{ name := "receita", dtype := .number }]

def totalOf (csv : String) : Except Error Build := do
  let t ← ofBytes csv.toUTF8
  let classes ← t.check amounts
  let plan : Plan := { kpis := [⟨"Total", "sum(receita)", none, none⟩] }
  (t.normalize classes).dataset.dashboard "ref" plan {} {} "v"

private theorem exists_totalOf {csv : String} {t : Table} {x : Float}
    (hread : ofBytes csv.toUTF8 = .ok t)
    (hvalid : t.check amounts = .ok amounts)
    (hvalue : (t.normalize amounts).dataset.evaluate "sum(receita)" = .ok x) :
    ∃ b, totalOf csv = .ok b ∧ b.document.kpis = [⟨"Total", x, none⟩] := by
  generalize hdataset : (t.normalize amounts).dataset = d at hvalue
  have hkpis : d.gatherKpis
      { kpis := [⟨"Total", "sum(receita)", none, none⟩] } {} =
        .ok ([⟨"Total", x, none⟩], []) := by
    simp only [Dataset.gatherKpis, List.take, gather, Dataset.kpi, hvalue]
    rfl
  have htotal : totalOf csv = d.dashboard "ref"
      { kpis := [⟨"Total", "sum(receita)", none, none⟩] } {} {} "v" := by
    rw [totalOf, hread, ← hdataset]
    change (t.check amounts >>= _) = _
    rw [hvalid]
    rfl
  exact ⟨_, htotal.trans (Dataset.dashboard_of_gatherKpis hkpis "ref" {} "v"),
    rfl⟩

private theorem unread_of_infinite {csv : String} {t : Table}
    (hread : ofBytes csv.toUTF8 = .ok t)
    (hvalid : t.check amounts = .ok amounts)
    (hvalue : (t.normalize amounts).dataset.evaluate "sum(receita)" =
      .ok (1.0 / 0.0)) :
    ∃ b, totalOf csv = .ok b ∧
      (∃ k ∈ b.document.kpis, k.value.isFinite = false) ∧
      ∀ rounding, ∀ text ∈ b.document.texts,
        Document.Record.read? text rounding = none := by
  obtain ⟨b, hbuild, hkpis⟩ := exists_totalOf hread hvalid hvalue
  have hinfinite : ∃ k ∈ b.document.kpis, k.value.isFinite = false := by
    rw [hkpis]
    exact ⟨_, List.mem_singleton_self _, rfl⟩
  refine ⟨b, hbuild, hinfinite, fun rounding text htext => ?_⟩
  obtain ⟨k, hk, hvalue⟩ := hinfinite
  rw [Document.read?_of_mem_texts htext, if_neg fun hfinite => ?_]
  rw [hfinite k hk] at hvalue
  contradiction

theorem dashboard_not_readBack :
    (∀ csv ∈ ["receita\ninf\n5\n", "receita\n1e308\n1e308\n"],
      ∃ b, totalOf csv = .ok b ∧
        (∃ k ∈ b.document.kpis, k.value.isFinite = false) ∧
        ∀ rounding, ∀ text ∈ b.document.texts,
          Document.Record.read? text rounding = none) ∧
    ∃ b, totalOf "receita\n28.36\n835.76\n432.77\n" = .ok b ∧
      b.document.kpis = [⟨"Total", 1296.8899999999999, none⟩] ∧
      ∀ text ∈ b.document.texts, ∃ r,
        Document.Record.read? text = some r ∧
          r.kpis = [⟨"Total", 1296.89, none⟩] ∧ r.kpis ≠ b.document.kpis := by
  constructor
  · simp only [List.forall_mem_cons, List.not_mem_nil, false_implies,
      implies_true, and_true]
    constructor
    · apply unread_of_infinite (t := ⟨[⟨"receita", [.text "inf", .number 5]⟩]⟩)
      · rw [ofBytes_toUTF8]
        decide +kernel
      · decide +kernel
      · decide +kernel
    · apply unread_of_infinite
        (t := ⟨[⟨"receita", [.number 1e308, .number 1e308]⟩]⟩)
      · rw [ofBytes_toUTF8]
        decide +kernel
      · decide +kernel
      · decide +kernel
  · have hread : ofBytes "receita\n28.36\n835.76\n432.77\n".toUTF8 =
        .ok ⟨[⟨"receita",
          [.number 28.36, .number 835.76, .number 432.77]⟩]⟩ := by
      rw [ofBytes_toUTF8]
      decide +kernel
    obtain ⟨b, hbuild, hkpis⟩ := exists_totalOf (x := 1296.8899999999999)
      hread (by decide +kernel) (by decide +kernel)
    have hrecord : (b.document.record Json.Rounding.quick.reread).kpis =
        [⟨"Total", 1296.89, none⟩] := by
      have hreread : Json.Rounding.quick.reread 1296.8899999999999 =
          1296.89 := by
        decide +kernel
      rw [Document.record, hkpis, List.map_singleton, hreread]
    refine ⟨b, hbuild, hkpis, fun text htext => ⟨_, ?_, hrecord, ?_⟩⟩
    · rw [Document.read?_of_mem_texts htext, hkpis, if_pos (by decide +kernel)]
    · rw [hrecord, hkpis]
      decide +kernel

end Table

end Chartbook
