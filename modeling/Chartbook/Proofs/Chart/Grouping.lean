import Chartbook.Proofs.Chart.Outcomes

/-!
# Groups of rows

A label in a row that both columns have opens a group, and as long as at least
one bar may be shown, a chart of bars shows one of the groups.
-/

namespace Chartbook

namespace Group

private theorem add_ne_nil (label : String) (number : Option Float)
    (value : Float) (groups : List Group) :
    add label number value groups ≠ [] := by
  cases groups with
  | nil => exact List.cons_ne_nil _ _
  | cons g rest =>
      rw [add]
      split <;> exact List.cons_ne_nil _ _

end Group

namespace Dataset

/-- A row that both columns have, with a label in the first one. -/
def HasCategory (category values : Values) : Prop :=
  ∃ row label, category.labels[row]? = some (some label) ∧ row < values.length

private theorem addLabelled_ne_nil {groups : List Group}
    {rows : List (Option String × Option Float × Option Float)}
    (h : groups ≠ [] ∨ ∃ label number value,
      (some label, number, value) ∈ rows) :
    addLabelled groups rows ≠ [] := by
  induction rows generalizing groups with
  | nil => exact h.resolve_right (by simp)
  | cons row rows ih =>
      obtain ⟨_ | label, number, value⟩ := row
      · refine ih (h.imp_right ?_)
        rintro ⟨label', number', value', hmem⟩
        exact ⟨label', number', value', by simpa using hmem⟩
      · rw [addLabelled]
        exact ih (.inl (Group.add_ne_nil _ _ _ _))

theorem length_categoryNumbers (values : Values) :
    (categoryNumbers values).length = values.length := by
  cases values <;> simp [categoryNumbers, Values.length]

theorem length_labels (values : Values) :
    values.labels.length = values.length := by
  cases values <;> simp [Values.labels, Values.length]

private theorem groups_ne_nil {category values : Values}
    (h : HasCategory category values) : groups category values ≠ [] := by
  obtain ⟨row, label, hlabel, hrow⟩ := h
  have hlt : row < category.length := by
    rw [← length_labels]
    exact (List.getElem?_eq_some_iff.mp hlabel).1
  have hnumber : ∃ number, (categoryNumbers category)[row]? = some number :=
    ⟨_, List.getElem?_eq_getElem (by rwa [length_categoryNumbers])⟩
  have hvalue : ∃ value, values.numeric[row]? = some value :=
    ⟨_, List.getElem?_eq_getElem (by rwa [Values.length_numeric])⟩
  obtain ⟨number, hnumber⟩ := hnumber
  obtain ⟨value, hvalue⟩ := hvalue
  have hmem : (some label, number, value) ∈
      category.labels.zip ((categoryNumbers category).zip values.numeric) := by
    refine List.mem_of_getElem? (i := row) ?_
    simp [List.getElem?_zip_eq_some, hlabel, hnumber, hvalue]
  rw [groups, ← List.length_pos_iff, List.length_mergeSort, List.length_pos_iff]
  exact addLabelled_ne_nil (.inr ⟨label, number, value, hmem⟩)

end Dataset

namespace ChartPlan

variable {plan : ChartPlan} {d : Dataset} {options : ChartOptions}

private theorem barCount_pos (h : 0 < options.topN) :
    0 < plan.barCount options := by
  rw [barCount]
  cases plan.topN with
  | none => exact h
  | some n =>
      by_cases hn : 0 < n
      · simp [Option.filter_some, hn]
      · simpa [Option.filter_some, hn] using h

private theorem largest_ne_nil {n : Nat} {groups : List Group} (hn : 0 < n)
    (h : groups ≠ []) : largest n groups ≠ [] := by
  rw [largest, ne_eq, List.take_eq_nil_iff, not_or]
  refine ⟨Nat.ne_of_gt hn, ?_⟩
  rwa [← ne_eq, ← List.length_pos_iff, List.length_mergeSort,
    List.length_pos_iff]

theorem rows_ne_nil_of_bars {chart : Chart} {x y : Dataset.Column}
    (hkind : plan.IsOf .bars) (h : plan.chart? d options = .ok (some chart))
    (hx : plan.xKey.bind d.column? = some x)
    (hy : plan.yKey.bind d.column? = some y)
    (hcategory : Dataset.HasCategory x.values y.values)
    (htop : 0 < options.topN) : chart.rows ≠ [] := by
  rw [chart?_of_bars hkind, map_ofColumns_eq_ok_iff] at h
  obtain ⟨x', y', hx', hy', -, rfl⟩ := h
  cases hx.symm.trans hx'
  cases hy.symm.trans hy'
  rw [drawBars, ne_eq, List.map_eq_nil_iff]
  exact largest_ne_nil (barCount_pos htop) (Dataset.groups_ne_nil hcategory)

end ChartPlan

end Chartbook
