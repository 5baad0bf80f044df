import Chartbook.Proofs.Dashboard.DateAxis
import Chartbook.Proofs.Dataset.Continuous
import Chartbook.Proofs.Number.Range

/-!
# Growth from month to month

The growth of a column is read off its monthly sums without months of zeros: the
change from the last month but one to the last one.  That such months are left
out is why it never divides by zero, and why the axis makes no difference.
-/

namespace Chartbook

namespace KpiFunction

variable {sums : List Float} {previous last : Float} {i : Nat}

theorem change_of_length_lt (h : sums.length < 2) : change sums = 0.0 := by
  unfold change
  split
  · rename_i hreverse
    have hlength := congrArg List.length hreverse
    simp at hlength
    omega
  · rfl

private theorem change_of_getElem? (hlength : i + 2 = sums.length)
    (hprevious : sums[i]? = some previous) (hlast : sums[i + 1]? = some last)
    (hne : (previous != 0.0) = true) :
    change sums = (last - previous) / previous.abs := by
  have hreverse : sums.reverse[0]? = some last ∧
      sums.reverse[1]? = some previous := by
    rw [List.getElem?_reverse (by omega), List.getElem?_reverse (by omega),
      ← hlast, ← hprevious]
    constructor <;> congr 1 <;> omega
  unfold change
  cases hsums : sums.reverse with
  | nil => simp [hsums] at hreverse
  | cons a rest =>
      cases rest with
      | nil => simp [hsums] at hreverse
      | cons b rest =>
          simp [hsums] at hreverse
          obtain ⟨rfl, rfl⟩ := hreverse
          simp [hne]

end KpiFunction

namespace Dataset

variable {d : Dataset} {x name : String} {m : Monthly}
  {dates : List (Option Timestamp)}

theorem monthly_continuous (d : Dataset) (x : String) (names : List String) :
    d.monthly x names .continuous true = d.monthly x names .occurring true := by
  cases h : d.monthly x names .occurring true with
  | error e => exact monthly_eq_error_iff.mpr (monthly_eq_error_iff.mp h)
  | ok m =>
      simp only [monthly_eq_ok_iff, MonthSums.continuous_eq_occurring] at h ⊢
      exact h

theorem row_of_monthly (hdates : d.dates? x = some dates)
    (hm : d.monthly x [name] .occurring true = .ok m) {row : Month × List Float}
    (hrow : row ∈ m.rows) :
    row.2 = [d.monthSum dates row.1 name] ∧
      (d.monthSum dates row.1 name != 0.0) = true := by
  obtain ⟨dates', hdates', -, rfl⟩ := monthly_eq_ok_iff.mp hm
  cases hdates'.symm.trans hdates
  have hmem : row ∈ MonthSums.ofColumns dates [d.numericOf name]
      .occurring true := by
    simpa using hrow
  have hsums : row.2 = [d.monthSum dates row.1 name] :=
    (MonthSums.mem_ofColumns hmem).2
  refine ⟨hsums, ?_⟩
  rw [MonthSums.ofColumns_dropZero, List.mem_filter] at hmem
  simpa [MonthSums.isNonzero, hsums] using hmem.2

private theorem value?_of_row (hdates : d.dates? x = some dates)
    (hm : d.monthly x [name] .occurring true = .ok m) {i : Nat}
    {row : Month × List Float} (hrow : m.rows[i]? = some row) :
    m.value? i name = some (d.monthSum dates row.1 name) := by
  have hcolumns : m.columns = [name] := by
    obtain ⟨_, -, -, rfl⟩ := monthly_eq_ok_iff.mp hm
    rfl
  apply Monthly.value?_map
  · rw [hrow, hcolumns]
    exact congrArg some (Prod.ext rfl
      (row_of_monthly hdates hm (List.mem_of_getElem? hrow)).1)
  · simp [hcolumns]

private theorem growthOf_of_last (hnames : d.columnNames.Nodup)
    (hx : d.dateAxis? = some x) {c : Column} (hc : c ∈ d.columns)
    (hm : d.monthly x [c.name] .occurring true = .ok m) {i : Nat}
    (hlength : i + 2 = m.rows.length) :
    ∃ previous last, m.value? i c.name = some previous ∧
      m.value? (i + 1) c.name = some last ∧ (previous.abs == 0.0) = false ∧
      KpiFunction.growthOf d c = (last - previous) / previous.abs := by
  obtain ⟨dates, hdates, -⟩ := monthly_eq_ok_iff.mp hm
  obtain ⟨m', hm', hgrowth⟩ := growthOf_of_dateAxis? hnames hx hdates hc
  cases hm'.symm.trans hm
  obtain ⟨row, hrow⟩ : ∃ row, m.rows[i]? = some row :=
    ⟨_, List.getElem?_eq_getElem (by omega)⟩
  obtain ⟨row', hrow'⟩ : ∃ row, m.rows[i + 1]? = some row :=
    ⟨_, List.getElem?_eq_getElem (by omega)⟩
  have hne := (row_of_monthly hdates hm (List.mem_of_getElem? hrow)).2
  refine ⟨_, _, value?_of_row hdates hm hrow, value?_of_row hdates hm hrow',
    ?_, ?_⟩
  · simpa [Number.beq_zero_abs, bne] using hne
  · rw [hgrowth]
    exact KpiFunction.change_of_getElem? (by simpa using hlength)
      (by simp [hrow]) (by simp [hrow']) hne

private theorem growthOf_of_few (hnames : d.columnNames.Nodup)
    (hx : d.dateAxis? = some x) {c : Column} (hc : c ∈ d.columns)
    (hm : d.monthly x [c.name] .occurring true = .ok m)
    (hlength : m.rows.length < 2) : KpiFunction.growthOf d c = 0.0 := by
  obtain ⟨dates, hdates, -⟩ := monthly_eq_ok_iff.mp hm
  obtain ⟨m', hm', hgrowth⟩ := growthOf_of_dateAxis? hnames hx hdates hc
  cases hm'.symm.trans hm
  rw [hgrowth]
  exact KpiFunction.change_of_length_lt (by simpa using hlength)

/--
The growth of a column is the change between the last two of its monthly sums by
the date axis without months of zeros, against the size of the earlier one,
which is never zero.  It is zero if there are fewer months or no date axis.  On
the continuous axis the months, and so the growth, are the same.
-/
theorem growth_agrees (hnames : d.columnNames.Nodup) {c : Column}
    (hc : c ∈ d.columns) :
    (d.dateAxis? = none → d.Gives .growth [c.name] 0.0) ∧
    ∀ x, d.dateAxis? = some x → ∃ m : Monthly,
      d.monthly x [c.name] .occurring true = .ok m ∧
      d.monthly x [c.name] .continuous true = .ok m ∧
      (m.rows.length < 2 → d.Gives .growth [c.name] 0.0) ∧
      ∀ i, i + 2 = m.rows.length → ∃ previous last,
        m.value? i c.name = some previous ∧
        m.value? (i + 1) c.name = some last ∧
        (previous.abs == 0.0) = false ∧
        d.Gives .growth [c.name] ((last - previous) / previous.abs) := by
  have hgives := gives_growth hnames hc
  refine ⟨fun hnone => growthOf_of_none hnone c ▸ hgives, fun x hx => ?_⟩
  obtain ⟨dates, hdates⟩ :=
    isDateColumn_iff.mp (isDateColumn_of_dateAxis? hnames hx)
  obtain ⟨m, hm, -⟩ := growthOf_of_dateAxis? hnames hx hdates hc
  refine ⟨m, hm, (monthly_continuous d x [c.name]).trans hm,
    fun hlength => ?_, fun i hi => ?_⟩
  · rw [growthOf_of_few hnames hx hc hm hlength] at hgives
    exact hgives
  · obtain ⟨previous, last, hprevious, hlast, hne, hgrowth⟩ :=
      growthOf_of_last hnames hx hc hm hi
    rw [hgrowth] at hgives
    exact ⟨previous, last, hprevious, hlast, hne, hgives⟩

theorem growth_agrees_zeroMonth :
    let dates : List (Option Timestamp) := [
      some (.ofDate ⟨2024, 3, 9, by decide⟩), none,
      some (.ofDate ⟨2024, 2, 1, by decide⟩),
      some (.ofDate ⟨2024, 1, 20, by decide⟩)]
    let c : Column :=
      ⟨"receita", .number, .numbers [some 25, some 7, some 0, some (-50)]⟩
    let d : Dataset := ⟨[⟨"data", .date, .dates dates⟩, c], 4⟩
    d.columnNames.Nodup ∧ c ∈ d.columns ∧ d.dateAxis? = some "data" ∧
      d.Gives .growth ["receita"] ((25 - -50) / (-50 : Float).abs) := by
  intro dates c d
  have hnames : d.columnNames.Nodup := by decide
  have hc : c ∈ d.columns := by simp [d]
  have haxis : d.dateAxis? = some "data" := rfl
  refine ⟨hnames, hc, haxis, ?_⟩
  obtain ⟨m, hm, -, -, hlast⟩ := (growth_agrees hnames hc).2 "data" haxis
  have hsums := @monthly_of_contains d "data" dates ["receita"] rfl
    (by decide) (by decide) .occurring true
  cases hm.symm.trans hsums
  obtain ⟨previous, last, hprevious, hlast, -, hgives⟩ :=
    hlast 0 (by decide +kernel)
  have hvalues : some previous = some (-50) ∧ some last = some 25 := by
    rw [← hprevious, ← hlast]
    decide +kernel
  simp only [Option.some.injEq] at hvalues
  rwa [hvalues.1, hvalues.2] at hgives

end Dataset

end Chartbook
