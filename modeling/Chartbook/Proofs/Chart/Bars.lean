import Chartbook.Proofs.Chart.Categories
import Chartbook.Proofs.Chart.Ranking

/-!
# Bars

Bars show the groups of two columns that come first in a ranking, and a
composition of the same columns shows all groups.  A row of bars is written
under the names of its columns, the label before the sum, so the sum is always
found, but the label only as long as the names are different.
-/

namespace Chartbook

/-! ## Rows of groups -/

namespace ChartPlan

theorem get?_valueKey_groupRow (labelKey valueKey : String) (g : Group) :
    (groupRow labelKey valueKey g).get? valueKey = some (.number g.sum) := by
  rw [groupRow, Keyed.get?_insert, if_pos rfl]

theorem get?_labelKey_groupRow (labelKey valueKey : String) (g : Group) :
    (groupRow labelKey valueKey g).get? labelKey = some
      (if labelKey = valueKey then .number g.sum else .text g.label) := by
  rw [groupRow, Keyed.get?_insert, Keyed.get?_insert, if_pos rfl]
  split <;> rfl

end ChartPlan

/-- The text of a row under one key and its number under another. -/
def Row.share? (row : Row) (labelKey valueKey : String) :
    Option (String × Float) :=
  match row.get? labelKey, row.get? valueKey with
  | some (.text label), some (.number sum) => some (label, sum)
  | _, _ => none

def Chart.shares? (chart : Chart) : Option (List (String × Float)) := do
  let labelKey ← chart.xKey.or chart.categoryKey
  let valueKey ← chart.yKey.or chart.valueKey
  chart.rows.mapM fun row => row.share? labelKey valueKey

def Group.share (g : Group) : String × Float := (g.label, g.sum)

section Shares

variable {labelKey valueKey : String}

private theorem share?_groupRow (h : labelKey ≠ valueKey) (g : Group) :
    (ChartPlan.groupRow labelKey valueKey g).share? labelKey valueKey =
      some g.share := by
  rw [Row.share?, ChartPlan.get?_labelKey_groupRow, if_neg h,
    ChartPlan.get?_valueKey_groupRow]
  rfl

theorem mapM_share?_groupRow (h : labelKey ≠ valueKey) (groups : List Group) :
    (groups.map (ChartPlan.groupRow labelKey valueKey)).mapM
      (fun row => row.share? labelKey valueKey) =
        some (groups.map Group.share) := by
  rw [List.mapM_map]
  simp only [Function.comp_def, share?_groupRow h]
  exact List.mapM_pure

end Shares

/-! ## Groups that are shown -/

theorem map_share_largest (n : Nat) (groups : List Group) :
    (ChartPlan.largest n groups).map Group.share =
      (byRank (groups.map Group.share)).take n := by
  rw [ChartPlan.largest, List.map_take, byRank]
  congr 1
  exact List.map_mergeSort fun a _ b _ => rfl

theorem mem_of_mem_largest {n : Nat} {groups : List Group} {g : Group}
    (h : g ∈ ChartPlan.largest n groups) : g ∈ groups :=
  List.mem_mergeSort.mp (List.mem_of_mem_take h)

theorem nodup_labels_largest {n : Nat} {groups : List Group}
    (h : (groups.map (·.label)).Nodup) :
    ((ChartPlan.largest n groups).map (·.label)).Nodup := by
  have hsorted := ((List.mergeSort_perm groups fun a b =>
    decide (Number.rank b.sum ≤ Number.rank a.sum)).map
      (·.label)).nodup_iff.mpr h
  exact hsorted.sublist ((List.take_sublist n _).map _)

namespace Dataset

/--
The labelled sums of two columns: each label that a row of both columns has,
once, with the sum from zero of the numbers in those rows.
-/
structure IsGrouping (category values : Values)
    (shares : List (String × Float)) : Prop where
  nodup : (shares.map Prod.fst).Nodup
  mem_iff : ∀ label, label ∈ shares.map Prod.fst ↔
    some label ∈ category.labels.take values.length
  sum_eq : ∀ share ∈ shares, share.2 = sumUnder category values share.1

variable {category values : Values}

theorem nodup_labels_groups :
    ((groups category values).map (·.label)).Nodup :=
  ((List.mergeSort_perm _ _).map _).nodup_iff.mpr nodup_labels_collected

theorem isGrouping_groups (category values : Values) :
    IsGrouping category values
      ((groups category values).map Group.share) := by
  have hlabels : ((groups category values).map Group.share).map Prod.fst =
      (groups category values).map (·.label) := List.map_map
  refine ⟨?_, fun label => ?_, ?_⟩
  · rw [hlabels]
    exact nodup_labels_groups
  · rw [hlabels, ← mem_labels_collected, List.mem_map, List.mem_map]
    simp only [mem_groups]
  · rw [List.forall_mem_map]
    exact fun g hg => sum_of_mem_collected (mem_groups.mp hg)

theorem IsGrouping.isOrdered {shares : List (String × Float)}
    (h : IsGrouping category values shares)
    (hnotNaN : ∀ share ∈ shares, share.2.isNaN = false) :
    ∀ share ∈ shares, Number.IsOrdered share.2 := by
  intro share hshare
  refine ⟨hnotNaN share hshare, ?_⟩
  rw [h.sum_eq share hshare]
  exact Number.foldl_add_ne_negativeZero (by decide +kernel) _

end Dataset

namespace ChartPlan

variable {d : Dataset} {options : ChartOptions} {x y : Dataset.Column}

theorem name_of_column? {key : Option String}
    (h : key.bind d.column? = some x) :
    key = some x.name := by
  obtain ⟨name, rfl, hfind⟩ := Option.bind_eq_some_iff.mp h
  have hname := List.find?_some hfind
  rw [of_decide_eq_true hname]

private theorem barCount_eq (plan : ChartPlan) (options : ChartOptions) :
    plan.barCount options =
      if 0 < plan.topN.getD 0 then plan.topN.getD 0 else options.topN := by
  rw [barCount]
  cases plan.topN with
  | none => rfl
  | some n => by_cases hn : 0 < n <;> simp [Option.filter_some, hn]

private theorem shares?_drawBars (plan : ChartPlan) (h : x.name ≠ y.name) :
    (plan.drawBars options x y).shares? = some
      ((byRank ((Dataset.groups x.values y.values).map Group.share)).take
        (plan.barCount options)) := by
  rw [← map_share_largest]
  exact mapM_share?_groupRow h _

theorem shares?_drawComposition (plan : ChartPlan) (kind : String) :
    (plan.drawComposition kind x y).shares? =
      some ((Dataset.groups x.values y.values).map Group.share) :=
  mapM_share?_groupRow (by decide) _

/--
Bars of two columns show the first of the labelled sums that a composition of
the same columns shows, ranked by the sum.  They show as many as the plan says,
or as the options say where the plan has no number or zero.
-/
theorem bars_top_of_composition {bars composition : ChartPlan}
    (hbars : bars.IsOf .bars) (hcomposition : composition.IsOf .composition)
    (hx : bars.xKey.bind d.column? = some x)
    (hy : bars.yKey.bind d.column? = some y)
    (hcategory : composition.categoryKey.bind d.column? = some x)
    (hvalue : composition.valueKey.bind d.column? = some y)
    (hsummable : Summable y.values) (hne : x ≠ y) (options : ChartOptions) :
    let n := if 0 < bars.topN.getD 0 then bars.topN.getD 0 else options.topN
    ∃ bar pie shares,
      bars.chart? d options = .ok (some bar) ∧
      composition.chart? d options = .ok (some pie) ∧
      pie.shares? = some shares ∧
      Dataset.IsGrouping x.values y.values shares ∧
      ((∀ share ∈ shares, share.2.isNaN = false) →
        ∃ shown, bar.shares? = some shown ∧ IsTop n shares shown) := by
  intro n
  have hname : x.name ≠ y.name := by
    intro hname
    have hkeys := (name_of_column? hx).trans
      ((congrArg some hname).trans (name_of_column? hy).symm)
    rw [hkeys] at hx
    exact hne (Option.some.inj (hx.symm.trans hy))
  have hgrouping := Dataset.isGrouping_groups x.values y.values
  refine ⟨_, _, _, chart?_eq_drawBars hbars hx hy hsummable,
    chart?_eq_drawComposition hcomposition hcategory hvalue hsummable,
    shares?_drawComposition .., hgrouping, fun hnotNaN => ?_⟩
  refine ⟨_, shares?_drawBars bars hname, ?_⟩
  rw [barCount_eq]
  exact isTop_byRank (hgrouping.isOrdered hnotNaN) n

theorem bars_top_of_composition_tie :
    let cliente : Dataset.Column := ⟨"cliente", .category,
      .texts [.text "Bruno", .text "Ana", .null, .text "Caio", .text "Ana"]⟩
    let receita : Dataset.Column := ⟨"receita", .number,
      .numbers [some 150, some 100, some 7, some 300, some 50]⟩
    let d : Dataset := ⟨[cliente, receita], 5⟩
    let bars : ChartPlan := {
      kind := "Stacked_bar", title := "T", xKey := some "cliente"
      yKey := some "receita", topN := some 2 }
    let composition : ChartPlan := {
      kind := "pie", title := "T", categoryKey := some "cliente"
      valueKey := some "receita" }
    ∃ bar pie, bars.chart? d {} = .ok (some bar) ∧
      composition.chart? d {} = .ok (some pie) ∧
      pie.shares? = some [("Ana", 150), ("Bruno", 150), ("Caio", 300)] ∧
      bar.shares? = some [("Caio", 300), ("Ana", 150)] := by
  intro cliente receita d bars composition
  have hbars : bars.IsOf .bars := by
    unfold IsOf
    decide
  have hcomposition : composition.IsOf .composition := by
    unfold IsOf
    decide
  have hsummable : Summable receita.values := .inl ⟨_, rfl⟩
  obtain ⟨bar, pie, shares, hbar, hpie, hshares, -, htop⟩ :=
    bars_top_of_composition (d := d) (x := cliente) (y := receita) hbars
      hcomposition rfl rfl rfl rfl hsummable (by decide +kernel) {}
  let groups : List Group :=
    [⟨"Ana", none, 150⟩, ⟨"Bruno", none, 150⟩, ⟨"Caio", none, 300⟩]
  have hperm : groups.Perm
      (Dataset.collected cliente.values receita.values) := by
    decide +kernel
  have hgroups : Dataset.groups cliente.values receita.values = groups := by
    rw [← Dataset.mergeSort_eq_groups hperm]
    exact List.mergeSort_of_pairwise (by decide +kernel)
  have hdrawn := hpie.symm.trans
    (chart?_eq_drawComposition hcomposition rfl rfl hsummable)
  rw [Except.ok.injEq, Option.some.injEq] at hdrawn
  have hpairs := hshares
  rw [hdrawn, shares?_drawComposition, hgroups, Option.some.injEq] at hpairs
  subst hpairs
  obtain ⟨shown, hshown, htop⟩ := htop (by decide +kernel)
  have hranking : IsRanking (groups.map Group.share)
      [("Caio", 300), ("Ana", 150), ("Bruno", 150)] :=
    ⟨by decide +kernel, by decide +kernel, by decide +kernel⟩
  refine ⟨bar, pie, hbar, hpie, hshares, hshown.trans ?_⟩
  rw [htop.eq_take _ hranking]
  rfl

/-! ## Both axes in a row -/

/--
A row of bars has its sum under the key of the values, written as null if it is
not finite.  The label is under the other key exactly if there are two keys: one
key has the sum alone.
-/
structure IsBar (labelKey valueKey label : String) (sum : Float) (row : Row) :
    Prop where
  sum_eq : row.get? valueKey = some (.number sum)
  null_iff : (Datum.number sum).toJson.compact = Json.null.compact ↔
    sum.isFinite = false
  label_iff : row.get? labelKey = some (.text label) ↔ labelKey ≠ valueKey

private theorem isBar_groupRow (labelKey valueKey : String) (g : Group) :
    IsBar labelKey valueKey g.label g.sum (groupRow labelKey valueKey g) where
  sum_eq := get?_valueKey_groupRow ..
  null_iff := by
    rw [← Bool.not_eq_true, Number.isFinite_iff, Nat.not_lt]
    exact Json.realChars_eq_null_iff g.sum
  label_iff := by
    rw [get?_labelKey_groupRow, Option.some.injEq]
    by_cases h : labelKey = valueKey <;> simp [h]

/--
Bars have the keys of their plan, which are the names of its two columns.  Each
row belongs to a label of the category, another one for each row.  It has the
sum of the rows of the dataset with that label under the second key, and the
label itself under the first key exactly if the plan does not name one column
twice.
-/
theorem rows_bars {plan : ChartPlan} {chart : Chart} (hkind : plan.IsOf .bars)
    (h : plan.chart? d options = .ok (some chart)) :
    ∃ x y labels, plan.xKey.bind d.column? = some x ∧
      plan.yKey.bind d.column? = some y ∧
      chart.xKey = some x.name ∧ chart.yKey = some y.name ∧
      plan.xKey = some x.name ∧ plan.yKey = some y.name ∧
      labels.Nodup ∧
      (∀ label ∈ labels, some label ∈ x.values.labels) ∧
      List.Forall₂ (fun label => IsBar x.name y.name label
        (Dataset.sumUnder x.values y.values label)) labels chart.rows := by
  rw [chart?_of_bars hkind, map_ofColumns_eq_ok_iff] at h
  obtain ⟨x, y, hx, hy, -, rfl⟩ := h
  let shown := largest (plan.barCount options)
    (Dataset.groups x.values y.values)
  have hcollected (g : Group) (hg : g ∈ shown) :
      g ∈ Dataset.collected x.values y.values :=
    Dataset.mem_groups.mp (mem_of_mem_largest hg)
  refine ⟨x, y, shown.map (·.label), hx, hy, rfl, rfl, name_of_column? hx,
    name_of_column? hy, nodup_labels_largest Dataset.nodup_labels_groups, ?_,
    ?_⟩
  · rw [List.forall_mem_map]
    intro g hg
    have hlabel : g.label ∈
        (Dataset.collected x.values y.values).map (·.label) :=
      List.mem_map_of_mem (hcollected g hg)
    exact List.mem_of_mem_take (Dataset.mem_labels_collected.mp hlabel)
  · rw [drawBars, List.forall₂_map_left_iff, List.forall₂_map_right_iff,
      List.forall₂_same]
    intro g hg
    rw [← Dataset.sum_of_mem_collected (hcollected g hg)]
    exact isBar_groupRow ..

theorem rows_bars_stacked :
    let loja : Dataset.Column := ⟨"loja", .category,
      .texts [.text "A", .text "B", .text "A"]⟩
    let receita : Dataset.Column := ⟨"receita", .number,
      .numbers [some 1.5, none, some 2.5]⟩
    let d : Dataset := ⟨[loja, receita], 3⟩
    let plan : ChartPlan := {
      kind := " STACKED_BAR", title := "T", xKey := some "loja"
      yKey := some "receita" }
    ∃ chart labels, plan.chart? d {} = .ok (some chart) ∧ chart.rows ≠ [] ∧
      List.Forall₂ (fun label row =>
        row.get? "loja" = some (.text label) ∧
        row.get? "receita" = some (.number
          (Dataset.sumUnder loja.values receita.values label)))
        labels chart.rows := by
  intro loja receita d plan
  have hkind : plan.IsOf .bars := by
    unfold IsOf
    decide
  have hx : plan.xKey.bind d.column? = some loja := rfl
  have hy : plan.yKey.bind d.column? = some receita := rfl
  have hchart : plan.chart? d {} = .ok (some (plan.drawBars {} loja receita)) :=
    chart?_eq_drawBars hkind hx hy (.inl ⟨_, rfl⟩)
  obtain ⟨x, y, labels, hx', hy', -, -, -, -, -, -, hrows⟩ :=
    rows_bars hkind hchart
  cases hx.symm.trans hx'
  cases hy.symm.trans hy'
  refine ⟨_, labels, hchart, ?_, hrows.imp fun label row hbar => ?_⟩
  · exact rows_ne_nil_of_bars hkind hchart hx hy ⟨0, "A", rfl, by decide⟩
      (by decide)
  · exact ⟨hbar.label_iff.mpr (by decide), hbar.sum_eq⟩

theorem label_replaced_by_sum :
    let receita : Dataset.Column := ⟨"receita", .number,
      .numbers [some 10, some 5, some 10]⟩
    let d : Dataset := ⟨[receita], 3⟩
    let plan : ChartPlan := {
      kind := "bar", title := "T", xKey := some "receita"
      yKey := some "receita" }
    ∃ chart row, plan.chart? d {} = .ok (some chart) ∧
      chart.xKey = some "receita" ∧ row ∈ chart.rows ∧
      ∀ label, row.get? "receita" ≠ some (.text label) := by
  intro receita d plan
  have hkind : plan.IsOf .bars := by
    unfold IsOf
    decide
  have hchart : plan.chart? d {} =
      .ok (some (plan.drawBars {} receita receita)) :=
    chart?_eq_drawBars hkind rfl rfl (.inl ⟨_, rfl⟩)
  have hrows := rows_ne_nil_of_bars hkind hchart rfl rfl
    ⟨0, "10", by decide +kernel, by decide⟩ (by decide)
  obtain ⟨row, hrow⟩ := List.exists_mem_of_ne_nil _ hrows
  refine ⟨_, row, hchart, rfl, hrow, fun label hlabel => ?_⟩
  obtain ⟨g, -, rfl⟩ := List.mem_map.mp hrow
  cases (get?_valueKey_groupRow "receita" "receita" g).symm.trans hlabel

end ChartPlan

end Chartbook
