import Chartbook.Proofs.Dataset.Occurring
import Mathlib.Data.List.Pairwise

/-!
# Sums on the continuous axis

On the continuous axis every calendar month from the first date to the last has
a row.  The rows of months that occur are those of the other axis, and the rows
that are filled in hold zeros alone, so they are gone again where months of
zeros are left out.  Filling can also be done by a loop that goes from month to
month: it ends, and it leaves the same rows.
-/

namespace Chartbook

namespace MonthSums

variable {width : Nat} {sums sums' : MonthSums} {first last m k : Month}
  {dates : List (Option Timestamp)} {columns : List (List (Option Float))}

/-! ## Sums as a table of months -/

theorem WellFormed.eq_map_total (h : WellFormed width sums) :
    sums = (sums.map Prod.fst).map fun m => (m, total width sums m) := by
  rw [List.map_map]
  refine (List.map_id sums).symm.trans (List.map_congr_left fun row hrow => ?_)
  have hlookup : sums.lookup row.1 = some row.2 := lookup_of_mem h hrow
  simp [total, hlookup]

theorem WellFormed.mem_iff (h : WellFormed width sums)
    {row : Month × List Float} :
    row ∈ sums ↔
      row.1 ∈ sums.map Prod.fst ∧ row.2 = total width sums row.1 := by
  constructor
  · intro hrow
    have hlookup : sums.lookup row.1 = some row.2 := lookup_of_mem h hrow
    exact ⟨List.mem_map_of_mem hrow, by simp [total, hlookup]⟩
  · rintro ⟨hmonth, hvalues⟩
    rw [h.eq_map_total, List.mem_map]
    exact ⟨row.1, hmonth, Prod.ext rfl hvalues.symm⟩

theorem total_of_notMem (h : m ∉ sums.map Prod.fst) :
    total width sums m = zeros width := by
  have hnone : sums.lookup m = none := lookup_eq_none fun row hrow heq =>
    h (heq ▸ List.mem_map_of_mem hrow)
  rw [total, hnone]
  rfl

theorem WellFormed.eq_of_mem_iff (h : WellFormed width sums)
    (h' : WellFormed width sums') (hmem : ∀ row, row ∈ sums ↔ row ∈ sums') :
    sums = sums' := by
  have hmonths : sums.map Prod.fst = sums'.map Prod.fst :=
    eq_of_ascending (List.pairwise_map.mpr h.ascending)
      (List.pairwise_map.mpr h'.ascending) fun m => by
        simp only [List.mem_map, hmem]
  have htotal (m : Month) : total width sums m = total width sums' m := by
    by_cases hm : m ∈ sums.map Prod.fst
    · obtain ⟨row, hrow, rfl⟩ := List.mem_map.mp hm
      rw [← (h.mem_iff.mp hrow).2, ← (h'.mem_iff.mp ((hmem row).mp hrow)).2]
    · rw [total_of_notMem hm, total_of_notMem (hmonths ▸ hm)]
  rw [h.eq_map_total, hmonths, funext htotal, ← h'.eq_map_total]

/-! ## The months between the first date and the last -/

structure Spans (first last : Month) (dates : List (Option Timestamp)) :
    Prop where
  first_occurs : Occurs first dates
  last_occurs : Occurs last dates
  bounds : ∀ m, Occurs m dates → m.before first = false ∧ last.before m = false

theorem Occurs.isCalendar (h : Occurs m dates) : m.IsCalendar := by
  obtain ⟨t, -, rfl⟩ := h
  exact Month.isCalendar_ofTimestamp t

theorem Spans.isBetween (h : Spans first last dates) (hm : Occurs m dates) :
    Month.IsBetween first last m :=
  ⟨hm.isCalendar, (h.bounds m hm).1, (h.bounds m hm).2⟩

theorem IsByMonth.exists_ends (h : IsByMonth dates columns sums)
    (hne : sums ≠ []) :
    ∃ first last, sums.head? = some first ∧ sums.getLast? = some last ∧
      Spans first.1 last.1 dates := by
  have hascending : sums.Pairwise fun a b => b.1.before a.1 = false :=
    h.ascending.imp Month.before_asymm
  refine ⟨sums.head hne, sums.getLast hne, List.head?_eq_some_head hne,
    List.getLast?_eq_some_getLast hne, ?_, ?_, fun m hm => ?_⟩
  · exact (h.months _).mp (List.mem_map_of_mem (List.head_mem hne))
  · exact (h.months _).mp (List.mem_map_of_mem (List.getLast_mem hne))
  · obtain ⟨row, hrow, rfl⟩ := List.mem_map.mp ((h.months m).mpr hm)
    exact ⟨hascending.rel_head_of_rel_head_head hrow (Month.not_before_self _),
      hascending.rel_getLast_of_rel_getLast_getLast hrow
        (Month.not_before_self _)⟩

theorem Spans.unique {first' last' : Month} (h : Spans first last dates)
    (h' : Spans first' last' dates) : first' = first ∧ last' = last :=
  ⟨Month.eq_of_not_before (h.bounds _ h'.first_occurs).1
      (h'.bounds _ h.first_occurs).1,
    Month.eq_of_not_before (h'.bounds _ h.last_occurs).2
      (h.bounds _ h'.last_occurs).2⟩

theorem IsByMonth.eq_nil_iff (h : IsByMonth dates columns sums) :
    sums = [] ↔ ∀ m, ¬Occurs m dates := by
  rw [← List.map_eq_nil_iff (f := Prod.fst), List.eq_nil_iff_forall_not_mem]
  exact forall_congr' fun m => not_congr (h.months m)

theorem IsByMonth.exists_spans (h : IsByMonth dates columns sums)
    (hoccurs : ∃ m, Occurs m dates) : ∃ first last, Spans first last dates := by
  obtain ⟨m, hm⟩ := hoccurs
  have hne : sums ≠ [] := fun hnil => h.eq_nil_iff.mp hnil m hm
  obtain ⟨first, last, -, -, hspans⟩ := h.exists_ends hne
  exact ⟨first.1, last.1, hspans⟩

theorem IsByMonth.filled_eq (h : IsByMonth dates columns sums)
    (hspans : Spans first last dates) (width : Nat) :
    filled width sums =
      (Month.run first last).map fun m => (m, total width sums m) := by
  have hne : sums ≠ [] := fun hnil =>
    h.eq_nil_iff.mp hnil first hspans.first_occurs
  obtain ⟨row, row', hhead, hlast, hends⟩ := h.exists_ends hne
  obtain ⟨hrow, hrow'⟩ := hspans.unique hends
  obtain ⟨month, values⟩ := row
  obtain ⟨month', values'⟩ := row'
  subst hrow hrow'
  simp [filled, hhead, hlast, total]

/-! ## The loop over the months -/

def opened (width : Nat) (m : Month) : MonthSums → MonthSums
  | [] => [(m, zeros width)]
  | (k, sums) :: rest =>
      if m = k then (k, sums) :: rest
      else if m.before k then (m, zeros width) :: (k, sums) :: rest
      else (k, sums) :: opened width m rest

theorem zeros_add_zeros (width : Nat) :
    (zeros width).zipWith (· + ·) (zeros width) = zeros width := by
  have hzero : (0.0 + 0.0 : Float) = 0.0 := by decide +kernel
  simp [zeros, hzero]

theorem opened_of_mem (h : sums.Pairwise fun a b => a.1.before b.1 = true)
    (hm : m ∈ sums.map Prod.fst) : opened width m sums = sums := by
  induction sums with
  | nil => contradiction
  | cons row rest ih =>
      obtain ⟨hfirst, hrest⟩ := List.pairwise_cons.mp h
      rw [opened]
      split
      · rfl
      · rename_i hne
        have hmem := (List.mem_cons.mp hm).resolve_left hne
        obtain ⟨later, hlater, rfl⟩ := List.mem_map.mp hmem
        simp [Month.before_asymm (hfirst later hlater), ih hrest hmem]

theorem opened_of_notMem (hm : m ∉ sums.map Prod.fst) :
    opened width m sums = add m (zeros width) sums := by
  have hlength : (zeros width).length = width := by simp [zeros]
  have hzeros : (zeros (zeros width).length).zipWith (· + ·) (zeros width) =
      zeros width := by
    rw [hlength, zeros_add_zeros]
  induction sums with
  | nil => simp [opened, add, hzeros]
  | cons row rest ih =>
      simp only [List.map_cons, List.mem_cons, not_or] at hm
      simp [opened, add, hm.1, ih hm.2, hzeros]

theorem WellFormed.opened (h : WellFormed width sums) (m : Month) :
    WellFormed width (opened width m sums) := by
  by_cases hm : m ∈ sums.map Prod.fst
  · rwa [opened_of_mem h.ascending hm]
  · rw [opened_of_notMem hm]
    exact h.add (by simp [zeros])

theorem mem_months_opened (h : WellFormed width sums) :
    k ∈ (MonthSums.opened width m sums).map Prod.fst ↔
      k = m ∨ k ∈ sums.map Prod.fst := by
  by_cases hm : m ∈ sums.map Prod.fst
  · rw [opened_of_mem h.ascending hm]
    exact ⟨.inr, fun hk => hk.elim (fun heq => heq ▸ hm) id⟩
  · rw [opened_of_notMem hm, mem_months_add]

theorem total_opened (h : WellFormed width sums) (m : Month) :
    total width (MonthSums.opened width m sums) k = total width sums k := by
  by_cases hm : m ∈ sums.map Prod.fst
  · rw [opened_of_mem h.ascending hm]
  · rw [opened_of_notMem hm, total_add h (by simp [zeros])]
    split
    · rename_i heq
      rw [heq, total_of_notMem hm, zeros_add_zeros]
    · rfl

/--
The months that the loop produces on its way up to `last`, and the sums that it
leaves.  It has ended when the month is not before `last`.
-/
inductive Fills (width : Nat) (last : Month) :
    Month → MonthSums → List Month → MonthSums → Prop where
  | done {m : Month} {sums : MonthSums} (h : m.before last = false) :
      Fills width last m sums [] sums
  | next {m : Month} {sums out : MonthSums} {produced : List Month}
      (h : m.before last = true)
      (rest : Fills width last m.next (MonthSums.opened width m.next sums)
        produced out) :
      Fills width last m sums (m.next :: produced) out

theorem exists_fills (width : Nat) (hlast : last.IsCalendar)
    (hm : m.IsCalendar) (sums : MonthSums) :
    ∃ produced out, Fills width last m sums produced out := by
  -- each round brings the month one step nearer to the last one
  induction hn : (last.index - m.index).toNat generalizing m sums with
  | zero =>
      refine ⟨[], sums, .done ?_⟩
      rw [Month.before_eq_false_iff hm hlast]
      omega
  | succ n ih =>
      have hbefore : m.before last = true := by
        rw [Month.before_iff_index_lt hm hlast]
        omega
      have hnext : (last.index - m.next.index).toNat = n := by
        rw [Month.index_next]
        omega
      obtain ⟨produced, out, h⟩ :=
        ih (Month.isCalendar_next hm) (opened width m.next sums) hnext
      exact ⟨_, _, .next hbefore h⟩

namespace Fills

variable {out out' : MonthSums} {produced produced' : List Month}

theorem mem_produced_iff (h : Fills width last m sums produced out)
    (hlast : last.IsCalendar) (hm : m.IsCalendar) :
    k ∈ produced ↔
      k.IsCalendar ∧ m.before k = true ∧ last.before k = false := by
  induction h with
  | @done m _ hdone =>
      simp only [List.not_mem_nil, false_iff, not_and]
      intro hk hbefore
      rw [Month.before_eq_false_iff hlast hk]
      rw [Month.before_eq_false_iff hm hlast] at hdone
      rw [Month.before_iff_index_lt hm hk] at hbefore
      omega
  | @next m _ _ _ hbefore _ ih =>
      have hnext := Month.isCalendar_next hm
      rw [List.mem_cons, ih hnext]
      constructor
      · rintro (rfl | ⟨hk, hafter, hle⟩)
        · refine ⟨hnext, ?_, (Month.before_iff_next hm hlast).mp hbefore⟩
          simp [Month.before_iff_next hm hnext, Month.not_before_self]
        · exact ⟨hk, Month.before_trans ((Month.before_iff_next hm hnext).mpr
            (Month.not_before_self _)) hafter, hle⟩
      · rintro ⟨hk, hafter, hle⟩
        rw [Month.before_iff_next hm hk] at hafter
        by_cases heq : k = m.next
        · exact .inl heq
        · exact .inr
            ⟨hk, Month.before_of_not_before heq (by simp [hafter]), hle⟩

theorem wellFormed (h : Fills width last m sums produced out)
    (hsums : WellFormed width sums) : WellFormed width out := by
  induction h with
  | done => exact hsums
  | next _ _ ih => exact ih (hsums.opened _)

theorem total_eq (h : Fills width last m sums produced out)
    (hsums : WellFormed width sums) (k : Month) :
    total width out k = total width sums k := by
  induction h with
  | done => rfl
  | next _ _ ih => rw [ih (hsums.opened _), total_opened hsums]

theorem mem_months (h : Fills width last m sums produced out)
    (hsums : WellFormed width sums) :
    k ∈ out.map Prod.fst ↔ k ∈ sums.map Prod.fst ∨ k ∈ produced := by
  induction h with
  | done => simp
  | next _ _ ih =>
      rw [ih (hsums.opened _), mem_months_opened hsums, List.mem_cons]
      tauto

end Fills

/-! ## The rows of the continuous axis -/

/--
Every calendar month from the first to the last, in order.  The months that
occur have the rows that they have on the other axis, all others have zeros.
-/
structure IsGrid (first last : Month) (dates : List (Option Timestamp))
    (occurring sums : MonthSums) : Prop where
  ascending : sums.Pairwise fun a b => a.1.before b.1 = true
  months : ∀ m, m ∈ sums.map Prod.fst ↔ Month.IsBetween first last m
  length : (sums.length : Int) =
    12 * (last.year - first.year) + (last.number - first.number) + 1
  occurring : ∀ row, Occurs row.1 dates → (row ∈ sums ↔ row ∈ occurring)
  others : ∀ row ∈ sums, ¬Occurs row.1 dates → ∀ x ∈ row.2, x = 0.0

theorem wellFormed_occurring (dates : List (Option Timestamp))
    (columns : List (List (Option Float))) :
    WellFormed columns.length (ofColumns dates columns .occurring false) := by
  rw [ofColumns_occurring]
  exact wellFormed_addRows dates rfl wellFormed_nil

theorem ofColumns_continuous (dates : List (Option Timestamp))
    (columns : List (List (Option Float))) :
    ofColumns dates columns .continuous false =
      filled columns.length (ofColumns dates columns .occurring false) := by
  simp [ofColumns]

theorem ofColumns_continuous_of_spans (h : Spans first last dates)
    (columns : List (List (Option Float))) :
    ofColumns dates columns .continuous false =
      (Month.run first last).map fun m => (m, total columns.length
        (ofColumns dates columns .occurring false) m) := by
  rw [ofColumns_continuous, (isByMonth_ofColumns dates columns).filled_eq h]

theorem wellFormed_continuous (h : Spans first last dates)
    (columns : List (List (Option Float))) :
    WellFormed columns.length (ofColumns dates columns .continuous false) := by
  rw [ofColumns_continuous_of_spans h]
  constructor
  · rw [List.pairwise_map]
    exact Month.pairwise_run first last
  · intro row hrow
    obtain ⟨m, -, rfl⟩ := List.mem_map.mp hrow
    exact length_total (wellFormed_occurring dates columns) m

theorem mem_continuous (h : Spans first last dates)
    {row : Month × List Float} :
    row ∈ ofColumns dates columns .continuous false ↔
      Month.IsBetween first last row.1 ∧
        row.2 = total columns.length
          (ofColumns dates columns .occurring false) row.1 := by
  rw [ofColumns_continuous_of_spans h, List.mem_map,
    ← Month.mem_run_iff h.first_occurs.isCalendar h.last_occurs.isCalendar]
  constructor
  · rintro ⟨m, hm, rfl⟩
    exact ⟨hm, rfl⟩
  · rintro ⟨hm, hvalues⟩
    exact ⟨row.1, hm, Prod.ext rfl hvalues.symm⟩

theorem mem_occurring {row : Month × List Float} :
    row ∈ ofColumns dates columns .occurring false ↔
      Occurs row.1 dates ∧
        row.2 = total columns.length
          (ofColumns dates columns .occurring false) row.1 := by
  rw [(wellFormed_occurring dates columns).mem_iff,
    (isByMonth_ofColumns dates columns).months]

private theorem total_of_not_occurs (h : ¬Occurs m dates) :
    total columns.length (ofColumns dates columns .occurring false) m =
      zeros columns.length :=
  total_of_notMem fun hm =>
    h (((isByMonth_ofColumns dates columns).months m).mp hm)

theorem isGrid_continuous (h : Spans first last dates)
    (columns : List (List (Option Float))) :
    IsGrid first last dates (ofColumns dates columns .occurring false)
      (ofColumns dates columns .continuous false) where
  ascending := (wellFormed_continuous h columns).ascending
  months := fun m => by
    rw [ofColumns_continuous_of_spans h, List.map_map]
    simp [Function.comp_def, Month.mem_run_iff h.first_occurs.isCalendar
      h.last_occurs.isCalendar]
  length := by
    have hle := (Month.before_eq_false_iff h.last_occurs.isCalendar
      h.first_occurs.isCalendar).mp (h.bounds _ h.last_occurs).1
    rw [ofColumns_continuous_of_spans h, List.length_map, Month.length_run]
    simp only [Month.index] at *
    omega
  occurring := fun row hrow => by
    simp [mem_continuous h, mem_occurring, hrow, h.isBetween hrow]
  others := fun row hrow hnot => by
    have hvalues := ((mem_continuous h).mp hrow).2
    rw [total_of_not_occurs hnot] at hvalues
    simp [hvalues, zeros]

private theorem fills_continuous (h : Spans first last dates)
    {produced : List Month} {out : MonthSums}
    (hfills : Fills columns.length last first
      (ofColumns dates columns .occurring false) produced out) :
    out = ofColumns dates columns .continuous false := by
  have hsums := wellFormed_occurring dates columns
  have hfirst := h.first_occurs.isCalendar
  have hlast := h.last_occurs.isCalendar
  refine (hfills.wellFormed hsums).eq_of_mem_iff
    (wellFormed_continuous h columns) fun row => ?_
  rw [(hfills.wellFormed hsums).mem_iff, hfills.mem_months hsums,
    hfills.total_eq hsums, mem_continuous h,
    (isByMonth_ofColumns dates columns).months,
    hfills.mem_produced_iff hlast hfirst]
  refine and_congr_left fun _ => ?_
  constructor
  · rintro (hoccurs | ⟨hm, hafter, hle⟩)
    · exact h.isBetween hoccurs
    · exact ⟨hm, Month.before_asymm hafter, hle⟩
  · rintro ⟨hm, hlow, hhigh⟩
    by_cases heq : row.1 = first
    · exact .inl (heq ▸ h.first_occurs)
    · exact .inr ⟨hm, Month.before_of_not_before heq (by simp [hlow]), hhigh⟩

/-! ## Without months of zeros -/

theorem ofColumns_dropZero (dates : List (Option Timestamp))
    (columns : List (List (Option Float))) (axis : MonthAxis) :
    ofColumns dates columns axis true =
      (ofColumns dates columns axis false).filter isNonzero := by
  simp [ofColumns]

theorem WellFormed.filter (h : WellFormed width sums)
    (p : Month × List Float → Bool) : WellFormed width (sums.filter p) :=
  ⟨h.ascending.filter p,
    fun row hrow => h.width row (List.mem_of_mem_filter hrow)⟩

theorem continuous_eq_occurring (dates : List (Option Timestamp))
    (columns : List (List (Option Float))) :
    ofColumns dates columns .continuous true =
      ofColumns dates columns .occurring true := by
  rw [ofColumns_dropZero, ofColumns_dropZero]
  have hbyMonth := isByMonth_ofColumns dates columns
  by_cases hdates : ∃ m, Occurs m dates
  · obtain ⟨first, last, hspans⟩ := hbyMonth.exists_spans hdates
    have hgrid := isGrid_continuous hspans columns
    refine ((wellFormed_continuous hspans columns).filter _).eq_of_mem_iff
      ((wellFormed_occurring dates columns).filter _) fun row => ?_
    rw [List.mem_filter, List.mem_filter]
    refine and_congr_left fun hnonzero => ?_
    by_cases hoccurs : Occurs row.1 dates
    · exact hgrid.occurring row hoccurs
    · have hnot : row ∉ ofColumns dates columns .occurring false :=
        fun hrow => hoccurs (mem_occurring.mp hrow).1
      refine iff_of_false (fun hrow => ?_) hnot
      obtain ⟨x, hx, hne⟩ := List.any_eq_true.mp hnonzero
      rw [hgrid.others row hrow hoccurs x hx] at hne
      exact absurd hne (by decide)
  · have hnil := hbyMonth.eq_nil_iff.mpr (not_exists.mp hdates)
    rw [ofColumns_continuous, hnil]
    rfl

/--
Without months of zeros both axes have the same rows.  With them, the continuous
one has every calendar month from the first date to the last, each once and in
order, with the rows of the months that occur and zeros in all others, and no
row if there is no date.  These are the rows that the loop over the months
leaves, which ends and produces only calendar months up to the last.
-/
theorem axes_agree (dates : List (Option Timestamp))
    (columns : List (List (Option Float))) :
    let occurring := ofColumns dates columns .occurring false
    let continuous := ofColumns dates columns .continuous false
    ofColumns dates columns .continuous true =
      ofColumns dates columns .occurring true ∧
    ((∀ m, ¬Occurs m dates) → continuous = []) ∧
    ((∃ m, Occurs m dates) → ∃ first last, Spans first last dates ∧
      IsGrid first last dates occurring continuous ∧
      (∃ produced,
        Fills columns.length last first occurring produced continuous ∧
        ∀ m ∈ produced, m.IsCalendar ∧ last.before m = false) ∧
      ∀ produced out, Fills columns.length last first occurring produced out →
        out = continuous) := by
  intro occurring continuous
  refine ⟨continuous_eq_occurring dates columns, fun hnone => ?_,
    fun hdates => ?_⟩
  · have hnil : occurring = [] :=
      (isByMonth_ofColumns dates columns).eq_nil_iff.mpr hnone
    have heq : continuous = filled columns.length occurring :=
      ofColumns_continuous dates columns
    rw [heq, hnil]
    rfl
  · obtain ⟨first, last, hspans⟩ :=
      (isByMonth_ofColumns dates columns).exists_spans hdates
    have hfirst := hspans.first_occurs.isCalendar
    have hlast := hspans.last_occurs.isCalendar
    obtain ⟨produced, out, hfills⟩ :=
      exists_fills columns.length hlast hfirst occurring
    obtain rfl : out = continuous := fills_continuous hspans hfills
    refine ⟨first, last, hspans, isGrid_continuous hspans columns,
      ⟨produced, hfills, fun m hm => ?_⟩,
      fun _ _ hfills' => fills_continuous hspans hfills'⟩
    obtain ⟨hcalendar, -, hle⟩ :=
      (hfills.mem_produced_iff hlast hfirst).mp hm
    exact ⟨hcalendar, hle⟩

theorem axes_agree_newYear :
    let dates : List (Option Timestamp) := [
      some (.ofDate ⟨2024, 2, 1, by decide⟩), none,
      some (.ofDate ⟨2023, 11, 30, by decide⟩)]
    let columns : List (List (Option Float)) := [[some 2, some 9, some 1]]
    (∃ m, Occurs m dates) ∧ ∃ first last, Spans first last dates ∧
      IsGrid first last dates (ofColumns dates columns .occurring false)
        (ofColumns dates columns .continuous false) ∧
      first = ⟨2023, 11⟩ ∧ last = ⟨2024, 2⟩ ∧
      (ofColumns dates columns .continuous false).map Prod.fst =
        [⟨2023, 11⟩, ⟨2023, 12⟩, ⟨2024, 1⟩, ⟨2024, 2⟩] := by
  intro dates columns
  have hdates : ∃ m, Occurs m dates := ⟨_, _, List.mem_cons_self .., rfl⟩
  obtain ⟨-, -, hcontinuous⟩ := axes_agree dates columns
  obtain ⟨first, last, hspans, hgrid, -⟩ := hcontinuous hdates
  have hends : Spans ⟨2023, 11⟩ ⟨2024, 2⟩ dates := by
    refine ⟨⟨.ofDate ⟨2023, 11, 30, by decide⟩, by simp [dates], rfl⟩,
      ⟨_, List.mem_cons_self .., rfl⟩, ?_⟩
    rintro m ⟨t, ht, rfl⟩
    simp only [dates, List.mem_cons, reduceCtorEq, Option.some.injEq,
      List.not_mem_nil, or_false, false_or] at ht
    rcases ht with rfl | rfl <;> decide
  obtain ⟨rfl, rfl⟩ := hends.unique hspans
  exact ⟨hdates, _, _, hspans, hgrid, rfl, rfl, by decide +kernel⟩

end MonthSums

end Chartbook
