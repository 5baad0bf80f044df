import Chartbook.Proofs.Chart.Grouping
import Chartbook.Proofs.Kpi.RawTotals
import Mathlib.Data.List.Sort
import Mathlib.Data.String.Basic

/-!
# Groups by category

The rows with one label add up to one group, in row order.  The groups are then
sorted by a key of their own, a number or the label.  No two groups have the
same key, so the order in which they were collected leaves no trace.
-/

namespace Chartbook

/-! ## Sorting by distinct keys -/

/-- The comparison of a sort goes by a key that no two members share. -/
structure SortsBy {α κ : Type} [LinearOrder κ] (le : α → α → Bool)
    (key : α → κ) (l : List α) : Prop where
  le_eq : ∀ a ∈ l, ∀ b ∈ l, le a b = decide (key a ≤ key b)
  nodup : (l.map key).Nodup

namespace SortsBy

variable {α κ : Type} [LinearOrder κ] {le : α → α → Bool} {key : α → κ}
  {l l' : List α}

private theorem of_perm (h : SortsBy le key l) (hperm : l'.Perm l) :
    SortsBy le key l' where
  le_eq a ha b hb := h.le_eq a (hperm.mem_iff.mp ha) b (hperm.mem_iff.mp hb)
  nodup := (hperm.map key).nodup_iff.mpr h.nodup

theorem pairwise_mergeSort (h : SortsBy le key l) :
    (l.mergeSort le).Pairwise fun a b => key a < key b := by
  have hmap : (l.mergeSort le).map key = (l.map key).mergeSort (· ≤ ·) :=
    List.map_mergeSort h.le_eq
  have hnodup : ((l.map key).mergeSort (· ≤ ·)).Nodup :=
    (List.mergeSort_perm _ _).nodup_iff.mpr h.nodup
  have hsorted := List.sortedLE_mergeSort.sortedLT_of_nodup hnodup
  rw [← hmap] at hsorted
  exact List.pairwise_map.mp hsorted.pairwise

theorem mergeSort_eq_of_perm (h : SortsBy le key l) (hperm : l'.Perm l) :
    l'.mergeSort le = l.mergeSort le := by
  refine @List.Perm.eq_of_pairwise _ (fun a b => key a < key b) _ _ ?_ ?_ ?_ ?_
  · intro a b _ _ hab hba
    exact absurd hba hab.asymm
  · exact (h.of_perm hperm).pairwise_mergeSort
  · exact h.pairwise_mergeSort
  · exact ((List.mergeSort_perm _ _).trans hperm).trans
      (List.mergeSort_perm _ _).symm

end SortsBy

/-! ## Rows of several columns -/

section Zip

variable {α β γ : Type}

theorem map_fst_zip_eq_take (l : List α) (m : List β) :
    (l.zip m).map Prod.fst = l.take m.length := by
  induction l generalizing m with
  | nil => simp
  | cons a l ih => cases m <;> simp [ih]

theorem zip_zip_of_length {l : List α} {m : List β} (h : l.length = m.length)
    (n : List γ) :
    (l.zip (m.zip n)).map (Prod.map id Prod.snd) = l.zip n := by
  induction l generalizing m n with
  | nil => rfl
  | cons a l ih =>
      obtain ⟨b, m, rfl⟩ := List.exists_cons_of_length_eq_add_one h.symm
      cases n with
      | nil => rfl
      | cons c n => simpa using ih (Nat.succ.inj h) n

end Zip

/-! ## One more row -/

namespace Group

def sumOf (label : String) : List Group → Float
  | [] => 0.0
  | g :: rest => if g.label = label then g.sum else sumOf label rest

variable {groups : List Group} {label : String} {number : Option Float}
  {value : Float}

theorem sumOf_eq_of_mem (h : (groups.map (·.label)).Nodup) {g : Group}
    (hg : g ∈ groups) : sumOf g.label groups = g.sum := by
  induction groups with
  | nil => simp at hg
  | cons first rest ih =>
      rw [List.map_cons, List.nodup_cons] at h
      rcases List.mem_cons.mp hg with rfl | hrest
      · simp [sumOf]
      · have hne : first.label ≠ g.label := by
          intro heq
          exact h.1 (heq ▸ List.mem_map_of_mem hrest)
        rw [sumOf, if_neg hne, ih h.2 hrest]

theorem sumOf_add (label : String) (number : Option Float) (value : Float)
    (groups : List Group) (l : String) :
    sumOf l (add label number value groups) =
      if label = l then sumOf l groups + value else sumOf l groups := by
  induction groups with
  | nil => simp [add, sumOf]
  | cons g rest ih =>
      by_cases hlabel : g.label = label
      · subst hlabel
        by_cases hl : g.label = l <;> simp [add, sumOf, hl]
      · rw [add, if_neg hlabel]
        by_cases hl : g.label = l
        · have hne : label ≠ l := fun h => hlabel (hl.trans h.symm)
          simp [sumOf, hl, hne]
        · simp [sumOf, hl, ih]

theorem labels_add (label : String) (number : Option Float) (value : Float)
    (groups : List Group) :
    (add label number value groups).map (·.label) =
      if label ∈ groups.map (·.label) then groups.map (·.label)
      else groups.map (·.label) ++ [label] := by
  induction groups with
  | nil => simp [add]
  | cons g rest ih =>
      by_cases hlabel : g.label = label
      · simp [add, hlabel]
      · rw [add, if_neg hlabel, List.map_cons, ih, List.map_cons]
        simp only [List.mem_cons, Ne.symm hlabel, false_or]
        split <;> rfl

theorem nodup_labels_add (h : (groups.map (·.label)).Nodup) :
    ((add label number value groups).map (·.label)).Nodup := by
  rw [labels_add]
  split
  · exact h
  · rename_i hnew
    exact List.nodup_append_comm.mp (List.nodup_cons.mpr ⟨hnew, h⟩)

theorem mem_labels_add {l : String} :
    l ∈ (add label number value groups).map (·.label) ↔
      l ∈ groups.map (·.label) ∨ label = l := by
  rw [labels_add]
  split
  · rename_i hmem
    constructor
    · exact .inl
    · rintro (h | rfl)
      · exact h
      · exact hmem
  · rw [List.mem_append, List.mem_singleton, eq_comm (a := label)]

private theorem forall_add {p : String → Option Float → Prop}
    (h : ∀ g ∈ groups, p g.label g.number) (hnew : p label number) :
    ∀ g ∈ add label number value groups, p g.label g.number := by
  induction groups with
  | nil => simpa [add] using hnew
  | cons g rest ih =>
      obtain ⟨hfirst, hrest⟩ := List.forall_mem_cons.mp h
      rw [add]
      split
      · exact List.forall_mem_cons.mpr ⟨hfirst, hrest⟩
      · exact List.forall_mem_cons.mpr ⟨hfirst, ih hrest⟩

end Group

/-! ## All rows -/

namespace Dataset

section Rows

variable {groups : List Group}
  {rows : List (Option String × Option Float × Option Float)}

theorem nodup_labels_addLabelled (h : (groups.map (·.label)).Nodup) :
    ((addLabelled groups rows).map (·.label)).Nodup := by
  induction rows generalizing groups with
  | nil => exact h
  | cons row rows ih =>
      obtain ⟨_ | label, number, value⟩ := row
      · exact ih h
      · exact ih (Group.nodup_labels_add h)

theorem mem_labels_addLabelled {l : String} :
    l ∈ (addLabelled groups rows).map (·.label) ↔
      l ∈ groups.map (·.label) ∨ some l ∈ rows.map Prod.fst := by
  induction rows generalizing groups with
  | nil => simp [addLabelled]
  | cons row rows ih =>
      obtain ⟨_ | label, number, value⟩ := row
      · rw [addLabelled, ih]
        simp
      · rw [addLabelled, ih, Group.mem_labels_add, or_assoc, List.map_cons,
          List.mem_cons, Option.some.injEq, eq_comm (a := label)]

theorem sumOf_addLabelled (l : String) :
    Group.sumOf l (addLabelled groups rows) =
      ((rows.filter fun row => row.1 = some l).map fun row =>
        row.2.2.getD 0.0).foldl (· + ·) (Group.sumOf l groups) := by
  induction rows generalizing groups with
  | nil => rfl
  | cons row rows ih =>
      obtain ⟨_ | label, number, value⟩ := row
      · rw [addLabelled, ih]
        simp
      -- The groups before the other rows have the row in them already.
      · rw [addLabelled, ih, Group.sumOf_add]
        by_cases hl : label = l <;> simp [hl]

theorem forall_addLabelled {p : String → Option Float → Prop}
    (h : ∀ g ∈ groups, p g.label g.number)
    (hrows : ∀ label number value,
      (some label, number, value) ∈ rows → p label number) :
    ∀ g ∈ addLabelled groups rows, p g.label g.number := by
  induction rows generalizing groups with
  | nil => exact h
  | cons row rows ih =>
      obtain ⟨_ | label, number, value⟩ := row
      · exact ih h fun l n v hmem => hrows l n v (List.mem_cons_of_mem _ hmem)
      · exact ih (Group.forall_add h (hrows _ _ _ (List.mem_cons_self ..)))
          fun l n v hmem => hrows l n v (List.mem_cons_of_mem _ hmem)

end Rows

def collected (category values : Values) : List Group :=
  addLabelled [] (category.labels.zip
    ((categoryNumbers category).zip values.numeric))

/--
The numbers that stand in the rows with a label, in row order; where there is no
number, zero.
-/
def numbersUnder (category values : Values) (label : String) : List Float :=
  ((category.labels.zip values.numeric).filter fun row =>
    row.1 = some label).map fun row => row.2.getD 0.0

def sumUnder (category values : Values) (label : String) : Float :=
  (numbersUnder category values label).foldl (· + ·) 0.0

section Collected

variable {category values : Values}

theorem nodup_labels_collected :
    ((collected category values).map (·.label)).Nodup :=
  nodup_labels_addLabelled List.nodup_nil

theorem mem_labels_collected {label : String} :
    label ∈ (collected category values).map (·.label) ↔
      some label ∈ category.labels.take values.length := by
  rw [collected, mem_labels_addLabelled, map_fst_zip_eq_take,
    List.length_zip, length_categoryNumbers, Values.length_numeric,
    ← length_labels category, ← List.take_take,
    List.take_of_length_le (List.length_take_le' ..)]
  simp

theorem mem_labels_collected_of_length
    (hlength : category.length = values.length) {label : String} :
    label ∈ (collected category values).map (·.label) ↔
      some label ∈ category.labels := by
  rw [mem_labels_collected, List.take_of_length_le]
  rw [length_labels, hlength]

theorem sum_of_mem_collected {g : Group} (hg : g ∈ collected category values) :
    g.sum = sumUnder category values g.label := by
  have hrows : category.labels.zip values.numeric =
      (category.labels.zip ((categoryNumbers category).zip
        values.numeric)).map (Prod.map id Prod.snd) := by
    rw [zip_zip_of_length]
    rw [length_labels, length_categoryNumbers]
  rw [← Group.sumOf_eq_of_mem nodup_labels_collected hg, collected,
    sumOf_addLabelled, sumUnder, numbersUnder, hrows, List.filter_map,
    List.map_map]
  rfl

theorem number_of_mem_collected {v : List (Option Float)} {g : Group}
    (hg : g ∈ collected (.numbers v) values) :
    ∃ x, some x ∈ v ∧ g.number = some x ∧ g.label = Number.text x := by
  refine forall_addLabelled (p := fun label number => ∃ x, some x ∈ v ∧
    number = some x ∧ label = Number.text x) (by simp) ?_ g hg
  intro label number value hrow
  obtain ⟨row, hrow⟩ := List.mem_iff_getElem?.mp hrow
  rw [List.getElem?_zip_eq_some, List.getElem?_zip_eq_some] at hrow
  obtain ⟨hlabel, hnumber, -⟩ := hrow
  have hnumber : v[row]? = some number := hnumber
  rw [Values.labels, List.getElem?_map, hnumber, Option.map_some,
    Option.some.injEq, Option.map_eq_some_iff] at hlabel
  obtain ⟨x, rfl, htext⟩ := hlabel
  exact ⟨x, List.mem_of_getElem? hnumber, rfl, htext.symm⟩

private theorem number_eq_none_of_mem_collected
    (h : category.areNumbers = false) {g : Group}
    (hg : g ∈ collected category values) : g.number = none := by
  refine forall_addLabelled (p := fun _ number => number = none) (by simp) ?_
    g hg
  intro label number value hrow
  have hnumber := (List.of_mem_zip (List.of_mem_zip hrow).2).1
  cases category with
  | numbers v => contradiction
  | dates v => exact List.eq_of_mem_replicate hnumber
  | texts v => exact List.eq_of_mem_replicate hnumber

/-! ## Category order -/

theorem sortsBy_number {v : List (Option Float)} :
    SortsBy Group.precedes (fun g => Number.rank (g.number.getD 0.0))
      (collected (.numbers v) values) where
  le_eq a ha b hb := by
    obtain ⟨x, -, hx, -⟩ := number_of_mem_collected ha
    obtain ⟨y, -, hy, -⟩ := number_of_mem_collected hb
    rw [Group.precedes, hx, hy]
    rfl
  nodup := by
    have hlabels := @nodup_labels_collected (.numbers v) values
    rw [List.Nodup, List.pairwise_map] at hlabels ⊢
    refine hlabels.imp_of_mem fun {a b} ha hb hne heq => hne ?_
    obtain ⟨x, -, hx, hxlabel⟩ := number_of_mem_collected ha
    obtain ⟨y, -, hy, hylabel⟩ := number_of_mem_collected hb
    rw [hx, hy] at heq
    have hxy : x = y := Number.eq_of_rank_eq heq
    rw [hxlabel, hylabel, hxy]

theorem sortsBy_label (h : category.areNumbers = false) :
    SortsBy Group.precedes Group.label (collected category values) where
  le_eq a ha b hb := by
    rw [Group.precedes, number_eq_none_of_mem_collected h ha]
  nodup := nodup_labels_collected

theorem mergeSort_eq_groups {groups : List Group}
    (h : groups.Perm (collected category values)) :
    groups.mergeSort Group.precedes = Dataset.groups category values := by
  cases hcategory : category.areNumbers with
  | false => exact (sortsBy_label hcategory).mergeSort_eq_of_perm h
  | true =>
      cases category with
      | numbers v => exact sortsBy_number.mergeSort_eq_of_perm h
      | dates v => contradiction
      | texts v => contradiction

theorem mem_groups {g : Group} :
    g ∈ groups category values ↔ g ∈ collected category values :=
  List.mem_mergeSort

/--
The order of the labels of a category: numbers by value, each number that the
column has once, and all other labels by code points.
-/
inductive InCategoryOrder (category : Values)
    (labels : List String) : Prop where
  | byNumber {v : List (Option Float)} {xs : List Float}
      (hcategory : category = .numbers v)
      (hlabels : labels = xs.map Number.text)
      (hmem : ∀ x, x ∈ xs ↔ some x ∈ v)
      (hsorted : xs.Pairwise fun x y => Number.rank x < Number.rank y)
  | byLabel (hcategory : category.areNumbers = false)
      (hsorted : labels.Pairwise (· < ·))

theorem mem_numbers_groups {v : List (Option Float)}
    (hv : ∀ x, some x ∈ v → x.isNaN = false)
    (hlength : (Values.numbers v).length = values.length) {x : Float} :
    x ∈ (groups (.numbers v) values).map (fun g => g.number.getD 0.0) ↔
      some x ∈ v := by
  rw [List.mem_map]
  constructor
  · rintro ⟨g, hg, rfl⟩
    obtain ⟨y, hy, hnumber, -⟩ := number_of_mem_collected (mem_groups.mp hg)
    rwa [hnumber]
  · intro hx
    have hlabel : some (Number.text x) ∈ (Values.numbers v).labels :=
      List.mem_map_of_mem hx
    obtain ⟨g, hg, hglabel⟩ :=
      List.mem_map.mp ((mem_labels_collected_of_length hlength).mpr hlabel)
    obtain ⟨y, hy, hnumber, hytext⟩ := number_of_mem_collected hg
    have hxy : y = x :=
      Number.eq_of_text_eq (hv y hy) (hv x hx) (hytext.symm.trans hglabel)
    exact ⟨g, mem_groups.mpr hg, by rw [hnumber, ← hxy]; rfl⟩

theorem inCategoryOrder_groups
    (hv : ∀ v x, category = .numbers v → some x ∈ v → x.isNaN = false)
    (hlength : category.length = values.length) :
    InCategoryOrder category ((groups category values).map (·.label)) := by
  cases hcategory : category.areNumbers with
  | false =>
      refine .byLabel hcategory (List.pairwise_map.mpr ?_)
      exact (sortsBy_label hcategory).pairwise_mergeSort
  | true =>
      cases category with
      | dates v => contradiction
      | texts v => contradiction
      | numbers v =>
          have hlabels : (groups (.numbers v) values).map (·.label) =
              ((groups (.numbers v) values).map fun g =>
                g.number.getD 0.0).map Number.text := by
            rw [List.map_map]
            apply List.map_congr_left
            intro g hg
            obtain ⟨x, -, hx, hlabel⟩ :=
              number_of_mem_collected (mem_groups.mp hg)
            simp [hx, hlabel]
          exact .byNumber rfl hlabels
            (fun x => mem_numbers_groups (hv v · rfl) hlength)
            (List.pairwise_map.mpr sortsBy_number.pairwise_mergeSort)

end Collected

end Dataset

/-! ## Compositions -/

theorem Table.shape_of_column? (t : Table) (classes : List ColumnClass)
    {name : String} {c : Dataset.Column}
    (h : (t.normalize classes).dataset.column? name = some c) :
    c.values.length = t.rowCount ∧
      ∀ v x, c.values = .numbers v → some x ∈ v → x.isNaN = false := by
  rw [column?_normalize, Option.map_eq_some_iff] at h
  obtain ⟨raw, hraw, rfl⟩ := h
  have htyped :=
    faithfullyTyped_typedColumn classes (List.mem_of_find?_eq_some hraw)
  exact ⟨htyped.length, htyped.notNaN⟩

structure Row.IsShare (row : Row) (label : String) (sum : Float) : Prop where
  name : row.get? "name" = some (.text label)
  value : row.get? "value" = some (.number sum)
  only : ∀ key, key ≠ "name" → key ≠ "value" → row.get? key = none

private theorem isShare_groupRow (g : Group) :
    (ChartPlan.groupRow "name" "value" g).IsShare g.label g.sum where
  name := by simp [ChartPlan.groupRow]
  value := by simp [ChartPlan.groupRow]
  only key hname hvalue := by
    rw [ChartPlan.groupRow, Keyed.get?_insert, if_neg hvalue,
      Keyed.get?_insert, if_neg hname]
    rfl

/--
The rows of a composition: one for each label of the category, in category
order, with the sum of the rows of the dataset that have the label.
-/
structure Dataset.IsPartition (category values : Values)
    (labels : List String) (rows : List Row) : Prop where
  nodup : labels.Nodup
  mem_iff : ∀ label, label ∈ labels ↔ some label ∈ category.labels
  ordered : InCategoryOrder category labels
  shares : List.Forall₂ (fun label row =>
    row.IsShare label (sumUnder category values label)) labels rows

theorem Dataset.isPartition_groups {category values : Values}
    (hv : ∀ v x, category = .numbers v → some x ∈ v → x.isNaN = false)
    (hlength : category.length = values.length) :
    IsPartition category values ((groups category values).map (·.label))
      ((groups category values).map
        (ChartPlan.groupRow "name" "value")) where
  nodup := by
    have hperm := (List.mergeSort_perm (collected category values)
      Group.precedes).map (·.label)
    exact hperm.nodup_iff.mpr nodup_labels_collected
  mem_iff label := by
    rw [← mem_labels_collected_of_length hlength, List.mem_map, List.mem_map]
    simp only [mem_groups]
  ordered := inCategoryOrder_groups hv hlength
  shares := by
    rw [List.forall₂_map_left_iff, List.forall₂_map_right_iff,
      List.forall₂_same]
    intro g hg
    rw [← sum_of_mem_collected (mem_groups.mp hg)]
    exact isShare_groupRow g

namespace ChartPlan

variable {plan : ChartPlan} {d : Dataset} {options : ChartOptions}
  {category value : Dataset.Column}

private theorem exists_chart_of_composition (hkind : plan.IsOf .composition)
    (hcategory : plan.categoryKey.bind d.column? = some category)
    (hvalue : plan.valueKey.bind d.column? = some value)
    (hsummable : Summable value.values) :
    ∃ chart, plan.chart? d options = .ok (some chart) ∧
      chart.rows = (Dataset.groups category.values value.values).map
        (groupRow "name" "value") :=
  ⟨_, chart?_eq_drawComposition hkind hcategory hvalue hsummable, rfl⟩

/--
A composition of two columns of a normalized table partitions the rows that have
a category.  Each label of the category is drawn once, in category order, with
the sum from zero of the numbers in its rows.  Sorting the groups in any other
order in which they could have been collected gives the same rows.
-/
theorem composition_partition (t : Table) (classes : List ColumnClass)
    (options : ChartOptions) (hkind : plan.IsOf .composition)
    (hcategory : plan.categoryKey.bind (t.normalize classes).dataset.column? =
      some category)
    (hvalue : plan.valueKey.bind (t.normalize classes).dataset.column? =
      some value)
    (hsummable : Summable value.values) :
    ∃ chart labels,
      plan.chart? (t.normalize classes).dataset options = .ok (some chart) ∧
      Dataset.IsPartition category.values value.values labels chart.rows ∧
      ∀ groups : List Group,
        groups.Perm (Dataset.collected category.values value.values) →
        (groups.mergeSort Group.precedes).map (groupRow "name" "value") =
          chart.rows := by
  obtain ⟨chart, hchart, hrows⟩ :=
    exists_chart_of_composition hkind hcategory hvalue hsummable
  obtain ⟨a, -, hcategory⟩ := Option.bind_eq_some_iff.mp hcategory
  obtain ⟨b, -, hvalue⟩ := Option.bind_eq_some_iff.mp hvalue
  obtain ⟨hlength, hnotNaN⟩ := t.shape_of_column? classes hcategory
  obtain ⟨hlength', -⟩ := t.shape_of_column? classes hvalue
  refine ⟨chart, _, hchart, hrows ▸ Dataset.isPartition_groups hnotNaN
    (hlength.trans hlength'.symm), fun groups hperm => ?_⟩
  rw [hrows, Dataset.mergeSort_eq_groups hperm]

theorem composition_partition_signedZeros :
    let faixa : Table.Column := ⟨"faixa", [.text "10", .text "9", .null,
      .text "-0", .text "9,0", .text "0", .text "100"]⟩
    let valor : Table.Column := ⟨"valor", [.text "1.5", .text "2", .text "50",
      .text "R$ 3", .number 4, .null, .text "8"]⟩
    let values : Values :=
      .numbers [some 10, some 9, none, some (-0), some 9, some 0, some 100]
    let t : Table := ⟨[faixa, valor]⟩
    let classes : List ColumnClass := [
      { name := "faixa", dtype := .number },
      { name := "valor", dtype := .string }]
    let plan : ChartPlan := {
      kind := "Donut ", title := "T", categoryKey := some "faixa"
      valueKey := some "valor" }
    ∃ chart labels,
      plan.chart? (t.normalize classes).dataset {} = .ok (some chart) ∧
      Dataset.IsPartition values (.texts valor.cells) labels chart.rows ∧
      chart.rows.map (fun row => (row.get? "name", row.get? "value")) = [
        (some (.text "-0"), some (.number 0)),
        (some (.text "0"), some (.number 0)),
        (some (.text "9"), some (.number 6)),
        (some (.text "10"), some (.number 1.5)),
        (some (.text "100"), some (.number 8))] := by
  intro faixa valor values t classes plan
  have hkind : plan.IsOf .composition := by
    unfold IsOf
    decide
  have hcategory : plan.categoryKey.bind
      (t.normalize classes).dataset.column? =
        some ⟨"faixa", .number, values⟩ := by
    decide +kernel
  have hvalue : plan.valueKey.bind (t.normalize classes).dataset.column? =
      some ⟨"valor", .string, .texts valor.cells⟩ := by
    decide +kernel
  have hsummable : Summable (.texts valor.cells) := by
    rw [← isMeasure_iff]
    decide +kernel
  obtain ⟨chart, labels, hchart, hpartition, hrows⟩ :=
    composition_partition t classes {} hkind hcategory hvalue hsummable
  let groups : List Group := [⟨"-0", some (-0), 0⟩, ⟨"0", some 0, 0⟩,
    ⟨"9", some 9, 6⟩, ⟨"10", some 10, 1.5⟩, ⟨"100", some 100, 8⟩]
  have hperm : groups.Perm
      (Dataset.collected values (.texts valor.cells)) := by
    decide +kernel
  have hsorted : groups.mergeSort Group.precedes = groups :=
    List.mergeSort_of_pairwise (by decide +kernel)
  refine ⟨chart, labels, hchart, hpartition, ?_⟩
  rw [← hrows groups hperm, hsorted]
  decide +kernel

end ChartPlan

end Chartbook
