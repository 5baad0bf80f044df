import Chartbook.Proofs.Dataset.Continuous
import Chartbook.Proofs.Except

/-!
# Sums of several lists of columns

The months of an axis depend on the dates alone and the sum of a column in a
month on that column alone.  So columns that are summed together with others
have the months and the sums that they have by themselves.  Only where months of
zeros are left out do the columns of a list decide together, which months stay,
and even then no sum is another one.
-/

namespace Chartbook

namespace MonthSums

def monthsOn (axis : MonthAxis) (dates : List (Option Timestamp)) :
    List Month :=
  (ofColumns dates [] axis false).map Prod.fst

private theorem months_occurring (dates : List (Option Timestamp))
    (columns : List (List (Option Float))) :
    (ofColumns dates columns .occurring false).map Prod.fst =
      monthsOn .occurring dates := by
  have h := isByMonth_ofColumns dates columns
  have hnone := isByMonth_ofColumns dates []
  exact eq_of_ascending (List.pairwise_map.mpr h.ascending)
    (List.pairwise_map.mpr hnone.ascending)
    fun m => (h.months m).trans (hnone.months m).symm

private theorem months_continuous (dates : List (Option Timestamp))
    (columns : List (List (Option Float))) :
    (ofColumns dates columns .continuous false).map Prod.fst =
      monthsOn .continuous dates := by
  by_cases hdates : ∃ m, Occurs m dates
  · obtain ⟨first, last, hspans⟩ :=
      (isByMonth_ofColumns dates columns).exists_spans hdates
    simp [monthsOn, ofColumns_continuous_of_spans hspans, Function.comp_def]
  · have hnil (columns : List (List (Option Float))) :
        ofColumns dates columns .occurring false = [] :=
      (isByMonth_ofColumns dates columns).eq_nil_iff.mpr
        (not_exists.mp hdates)
    simp [monthsOn, ofColumns_continuous, hnil, filled]

private theorem months_ofColumns (dates : List (Option Timestamp))
    (columns : List (List (Option Float))) (axis : MonthAxis) :
    (ofColumns dates columns axis false).map Prod.fst =
      monthsOn axis dates := by
  cases axis with
  | occurring => exact months_occurring dates columns
  | continuous => exact months_continuous dates columns

theorem ofColumns_eq_map (dates : List (Option Timestamp))
    (columns : List (List (Option Float))) (axis : MonthAxis) :
    ofColumns dates columns axis false =
      (monthsOn axis dates).map fun m => (m, columns.map (sumIn m dates)) := by
  rw [← months_ofColumns dates columns, List.map_map]
  refine (List.map_id _).symm.trans (List.map_congr_left fun row hrow => ?_)
  exact Prod.ext rfl (mem_ofColumns hrow).2

theorem isNonzero_eq : isNonzero = fun row => !row.2.all fun x => x == 0.0 := by
  funext row
  simp only [isNonzero, List.not_all_eq_any_not, bne]

end MonthSums

namespace Monthly

variable {a b : Monthly} {i j : Nat}

/-- The values of a row stand in a row of other sums too, for the same month. -/
def RowIn (a : Monthly) (i : Nat) (b : Monthly) (j : Nat) : Prop :=
  ∃ month sums sums', a.rows[i]? = some (month, sums) ∧
    b.rows[j]? = some (month, sums') ∧
    ∀ name ∈ a.columns, ∃ x, a.value? i name = some x ∧
      b.value? j name = some x

/-- The rows in which not every value is zero. -/
def withoutZeros (m : Monthly) : Monthly :=
  ⟨m.columns, m.rows.filter fun row => !row.2.all fun x => x == 0.0⟩

theorem value?_congr (hcolumns : a.columns = b.columns)
    (hrow : a.rows[i]? = b.rows[j]?) (name : String) :
    a.value? i name = b.value? j name := by
  simp [value?, hcolumns, hrow]

theorem exists_rowIn_of_mem {c : Monthly} (hcolumns : a.columns = b.columns)
    (hrows : ∀ row ∈ a.rows, row ∈ b.rows)
    (hrowIn : ∀ j < b.rows.length, ∃ k, b.RowIn j c k)
    (hi : i < a.rows.length) : ∃ k, a.RowIn i c k := by
  obtain ⟨j, hj, hrow⟩ :=
    List.getElem_of_mem (hrows _ (List.getElem_mem hi))
  obtain ⟨k, month, sums, sums', hmonth, hmonth', hvalues⟩ := hrowIn j hj
  have heq : a.rows[i]? = b.rows[j]? := by simp [hi, hj, hrow]
  refine ⟨k, month, sums, sums', heq.trans hmonth, hmonth', ?_⟩
  intro name hname
  rw [value?_congr hcolumns heq]
  exact hvalues name (hcolumns ▸ hname)

end Monthly

namespace Dataset

open MonthSums

variable {d : Dataset} {x : String} {names : List String} {axis : MonthAxis}
  {m : Monthly}

theorem monthly_withoutZeros (d : Dataset) (x : String) (names : List String)
    (axis : MonthAxis) :
    d.monthly x names axis true =
      (d.monthly x names axis false).map Monthly.withoutZeros := by
  cases h : d.monthly x names axis false with
  | error e => exact monthly_eq_error_iff.mpr (monthly_eq_error_iff.mp h)
  | ok m =>
      obtain ⟨dates, hdates, hcontains, rfl⟩ := monthly_eq_ok_iff.mp h
      refine monthly_eq_ok_iff.mpr ⟨dates, hdates, hcontains, ?_⟩
      by_cases hne : names = []
      · simp [Monthly.withoutZeros, hne]
      · simp only [Monthly.withoutZeros, if_neg hne, ofColumns_dropZero,
          isNonzero_eq]

theorem monthly_eq_ok_map_iff (hne : names ≠ []) :
    d.monthly x names axis false = .ok m ↔
      ∃ dates, d.dates? x = some dates ∧
        (∀ name ∈ names, d.contains name = true) ∧
        m = ⟨names, (monthsOn axis dates).map fun k =>
          (k, names.map (d.monthSum dates k))⟩ := by
  simp only [monthly_eq_ok_iff, if_neg hne, ofColumns_eq_map, List.map_map]
  rfl

private theorem value?_of_month {dates : List (Option Timestamp)} {i : Nat}
    {month : Month} {name : String}
    (hi : (monthsOn axis dates)[i]? = some month) (hname : name ∈ names) :
    Monthly.value? ⟨names, (monthsOn axis dates).map fun k =>
      (k, names.map (d.monthSum dates k))⟩ i name =
        some (d.monthSum dates month name) := by
  refine @Monthly.value?_map _ (d.monthSum dates month) i month name ?_ hname
  simp [hi]

theorem exists_monthly_of_subset {more : List String} {b : Monthly}
    (hne : names ≠ []) (hsubset : names ⊆ more)
    (hb : d.monthly x more axis false = .ok b) :
    ∃ a, d.monthly x names axis false = .ok a ∧
      a.rows.length = b.rows.length ∧
      ∀ i < a.rows.length, a.RowIn i b i := by
  obtain ⟨dates, hdates, hcontains, rfl⟩ :=
    (monthly_eq_ok_map_iff (List.ne_nil_of_mem (hsubset
      (List.head_mem hne)))).mp hb
  refine ⟨_, (monthly_eq_ok_map_iff hne).mpr ⟨dates, hdates,
    fun name hname => hcontains name (hsubset hname), rfl⟩, by simp, ?_⟩
  intro i hi
  obtain ⟨month, hmonth⟩ : ∃ month, (monthsOn axis dates)[i]? = some month :=
    ⟨_, List.getElem?_eq_getElem (by simpa using hi)⟩
  refine ⟨month, names.map (d.monthSum dates month),
    more.map (d.monthSum dates month), by simp [hmonth], by simp [hmonth], ?_⟩
  intro name hname
  exact ⟨_, value?_of_month hmonth hname,
    value?_of_month hmonth (hsubset hname)⟩

end Dataset

end Chartbook
