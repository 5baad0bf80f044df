import Chartbook.Proofs.Dataset.Monthly
import Chartbook.Proofs.Kpi.Sandbox
import Chartbook.Proofs.Number.Range

/-!
# Finite values

Over numbers of moderate size every function of the table has a finite value:
sums stay far below the largest number, and a divisor that is not zero stays far
above the least one.
-/

namespace Chartbook

open Number

/-- Every number has a moderate size, and no column is too long to be summed. -/
structure Dataset.IsModerate (d : Dataset) : Prop where
  size {c : Column} (hc : c ∈ d.columns) {x : Float}
    (hx : some x ∈ c.values.numeric) : Number.IsModerate x
  length {c : Column} (hc : c ∈ d.columns) : c.values.length ≤ 2 ^ 52

abbrev IsSum (n : Nat) (x : Float) : Prop :=
  IsWithin lowestPlace highestPlace n x

theorem isSum_zero (n : Nat) : IsSum n 0.0 := isWithin_zero n

theorem isSum_foldl {xs : List Float} {start : Float}
    (hstart : IsSum 0 start) (hxs : ∀ x ∈ xs, IsSum 1 x)
    (hlength : xs.length ≤ 2 ^ 53) :
    IsSum xs.length (xs.foldl (· + ·) start) := by
  have hsum := hstart.foldl_add hxs (by decide) (by omega)
  rwa [Nat.zero_add] at hsum

theorem units_ne_zero {n : Nat} {x : Float} (hx : IsSum n x)
    (hne : (x == 0.0) ≠ true) : units x ≠ 0 :=
  fun hunits => hne (beq_zero_of_units hx.isFinite hunits)

namespace KpiFunction

/-! ## The numbers of one column -/

theorem isFinite_mean {xs : List Float} (hxs : ∀ x ∈ xs, IsSum 1 x)
    (hlength : xs.length ≤ 2 ^ 52) : (mean xs).isFinite = true := by
  unfold mean
  split
  · rfl
  · rename_i hne
    have hpos : 0 < xs.length := by
      simpa [List.length_pos_iff] using hne
    have hsum := isSum_foldl (isSum_zero 0) hxs (by omega)
    obtain ⟨hcount, hcount_ne⟩ := isWithin_ofNat (n := xs.length) (by omega)
    exact hsum.isFinite_div hcount (by omega) (by decide)
      (hcount_ne hpos)

private theorem foldl_choose {choose : Float → Float → Float} {P : Float → Prop}
    (hchoose : ∀ a b, choose a b = a ∨ choose a b = b) {x : Float}
    {xs : List Float} (hx : P x) (hxs : ∀ y ∈ xs, P y) :
    P (xs.foldl choose x) := by
  induction xs generalizing x with
  | nil => exact hx
  | cons y ys ih =>
      simp only [List.forall_mem_cons] at hxs
      apply ih _ hxs.2
      rcases hchoose x y with heq | heq
      · rwa [heq]
      · rw [heq]
        exact hxs.1

theorem isFinite_extreme {choose : Float → Float → Float}
    (hchoose : ∀ a b, choose a b = a ∨ choose a b = b) {xs : List Float}
    (hxs : ∀ x ∈ xs, x.isFinite = true) :
    (extreme choose xs).isFinite = true := by
  cases xs with
  | nil => exact (isSum_zero 0).isFinite
  | cons x xs =>
      simp only [List.forall_mem_cons] at hxs
      exact foldl_choose hchoose hxs.1 hxs.2

theorem lesser_eq_or (a b : Float) : lesser a b = a ∨ lesser a b = b := by
  unfold lesser
  split <;> simp

theorem greater_eq_or (a b : Float) : greater a b = a ∨ greater a b = b := by
  unfold greater
  split <;> simp

theorem isFinite_ratio {n m : Nat} {x y : Float} (hx : IsSum n x)
    (hy : IsSum m y) (hn : n ≤ 2 ^ 53) : (ratio x y).isFinite = true := by
  unfold ratio
  split
  · rfl
  · rename_i hne
    exact hx.isFinite_div hy hn (by decide) (units_ne_zero hy hne)

/-! ## The growth from month to month -/

private theorem isFinite_change {sums : List Float} {n : Nat}
    (hsums : ∀ x ∈ sums, IsSum n x) (hn : n ≤ 2 ^ 52) :
    (change sums).isFinite = true := by
  unfold change
  split
  · rename_i last previous rest hreverse
    have hmem {x : Float} (hx : x ∈ last :: previous :: rest) : IsSum n x := by
      rw [← hreverse, List.mem_reverse] at hx
      exact hsums x hx
    have hlast := hmem (x := last) (by simp)
    have hprevious := hmem (x := previous) (by simp)
    split
    · rename_i hne
      apply (hlast.sub hprevious (by decide) (by omega)).isFinite_div
        hprevious.abs (by omega) (by decide)
      have hunits := (units_abs hprevious.isFinite).2
      rw [← Int.natAbs_pos, hunits, Int.natAbs_pos]
      apply units_ne_zero hprevious
      simpa [bne] using hne
    · rfl
  · rfl

private theorem isSum_sumIn {dates : List (Option Timestamp)}
    {column : List (Option Float)} (m : Month)
    (hcolumn : ∀ x, some x ∈ column → IsSum 1 x)
    (hlength : dates.length ≤ 2 ^ 52) :
    IsSum (2 ^ 52) (MonthSums.sumIn m dates column) := by
  have hcount : (MonthSums.valuesIn m dates column).length ≤ dates.length := by
    unfold MonthSums.valuesIn
    rw [List.length_map]
    exact (List.length_filter_le ..).trans (List.length_range ..).le
  have hvalues : ∀ x ∈ MonthSums.valuesIn m dates column, IsSum 1 x := by
    intro x hx
    simp only [MonthSums.valuesIn, List.mem_map] at hx
    obtain ⟨i, -, rfl⟩ := hx
    cases hvalue : column[i]?.join with
    | none => exact isSum_zero 1
    | some x =>
        apply hcolumn
        rw [Option.join_eq_some_iff] at hvalue
        exact List.mem_of_getElem? hvalue
  unfold MonthSums.sumIn
  exact (isSum_foldl (isSum_zero 0) hvalues (by omega)).mono (by omega)

private theorem exists_column_of_dates? {d : Dataset} {name : String}
    {dates : List (Option Timestamp)} (h : d.dates? name = some dates) :
    ∃ c ∈ d.columns, c.values = .dates dates := by
  unfold Dataset.dates? at h
  split at h
  · rename_i hcolumn
    cases h
    exact ⟨_, List.mem_of_find?_eq_some hcolumn, rfl⟩
  · contradiction

private theorem isFinite_growthOf {d : Dataset} {c : Dataset.Column}
    (hd : d.IsModerate) (hc : c ∈ d.columns) :
    (growthOf d c).isFinite = true := by
  unfold growthOf
  split
  · rename_i dates haxis
    obtain ⟨name, -, hdates⟩ := Option.bind_eq_some_iff.mp haxis
    obtain ⟨axis, haxis, hvalues⟩ := exists_column_of_dates? hdates
    have hlength := hd.length haxis
    rw [hvalues] at hlength
    apply isFinite_change _ le_rfl
    intro x hx
    obtain ⟨row, hrow, rfl⟩ := List.mem_map.mp hx
    rw [(MonthSums.mem_ofColumns hrow).2]
    exact isSum_sumIn row.1 (fun x hx => (hd.size hc hx).isWithin) hlength
  · rfl

/-! ## The table of functions -/

private theorem isSum_of_mem_present {d : Dataset} {c : Dataset.Column}
    (hd : d.IsModerate) (hc : c ∈ d.columns) :
    ∀ x ∈ present c, IsSum 1 x := by
  intro x hx
  simp only [present, List.mem_filterMap, id] at hx
  obtain ⟨value, hvalue, rfl⟩ := hx
  exact (hd.size hc hvalue).isWithin

theorem length_present_le {d : Dataset} {c : Dataset.Column}
    (hd : d.IsModerate) (hc : c ∈ d.columns) :
    (present c).length ≤ 2 ^ 52 := by
  apply le_trans (List.length_filterMap_le ..)
  rw [Values.length_numeric]
  exact hd.length hc

private theorem isFinite_of_value? {d : Dataset} {args : List Dataset.Column}
    {f : KpiFunction} {x : Float} (hd : d.IsModerate)
    (hargs : ∀ c ∈ args, c ∈ d.columns) (h : f.value? d args = some x) :
    x.isFinite = true := by
  have hpresent {c : Dataset.Column} (hc : c ∈ d.columns) :
      IsSum (present c).length (floatSum (present c)) := by
    apply isSum_foldl (isWithin_negativeZero 0) (isSum_of_mem_present hd hc)
    have hlength := length_present_le hd hc
    omega
  unfold value? at h
  split at h <;> cases h <;> simp only [List.forall_mem_cons] at hargs
  · exact (hpresent hargs.1).isFinite
  · exact isFinite_mean (isSum_of_mem_present hd hargs.1)
      (length_present_le hd hargs.1)
  · exact isFinite_extreme lesser_eq_or fun x hx =>
      (isSum_of_mem_present hd hargs.1 x hx).isFinite
  · exact isFinite_extreme greater_eq_or fun x hx =>
      (isSum_of_mem_present hd hargs.1 x hx).isFinite
  · have hlength := length_present_le hd hargs.1
    exact (isWithin_ofNat (by omega)).1.isFinite
  · exact isFinite_growthOf hd hargs.1
  · have hlength := length_present_le hd hargs.1
    exact isFinite_ratio (hpresent hargs.1) (hpresent hargs.2.1) (by omega)

end KpiFunction

namespace Dataset

theorem isFinite_of_evaluate {d : Dataset} {source : String} {x : Float}
    (hd : d.IsModerate) (h : d.evaluate source = .ok x) :
    x.isFinite = true := by
  have hcases := d.evaluate_cases source
  rw [h] at hcases
  cases hcases with
  | value p f hp hf harity hcolumns _ hx =>
      apply KpiFunction.isFinite_of_value? hd _ hx
      intro c hc
      obtain ⟨name, -, hname⟩ := List.mem_filterMap.mp hc
      exact List.mem_of_find?_eq_some hname

end Dataset

end Chartbook
