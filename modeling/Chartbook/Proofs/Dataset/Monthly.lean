import Chartbook.Dataset.Monthly
import Chartbook.Proofs.Calendar.Month

/-!
# What monthly sums stand for

The sums of a month are those of its rows alone: for each column the values in
the rows dated in that month, from zero and down the rows.  On both axes every
row of the result is of this form.  Columns are found by their names.
-/

namespace Chartbook

namespace MonthSums

variable {width : Nat} {sums : MonthSums} {m : Month}

/-- The values of a column in the rows dated in a month; missing ones are
zero. -/
def valuesIn (m : Month) (dates : List (Option Timestamp))
    (column : List (Option Float)) : List Float :=
  ((List.range dates.length).filter fun i =>
    dates[i]?.join.map Month.ofTimestamp = some m).map fun i =>
      column[i]?.join.getD 0.0

def sumIn (m : Month) (dates : List (Option Timestamp))
    (column : List (Option Float)) : Float :=
  (valuesIn m dates column).foldl (· + ·) 0.0

theorem valuesIn_cons (m : Month) (date : Option Timestamp)
    (dates : List (Option Timestamp)) (column : List (Option Float)) :
    valuesIn m (date :: dates) column =
      (if date.map Month.ofTimestamp = some m then [headValue column]
        else []) ++ valuesIn m dates column.tail := by
  have hhead : column[0]?.join.getD 0.0 = headValue column := by
    rw [headValue, List.head?_eq_getElem?]
  have htail : ((List.range dates.length).map Nat.succ).filter (fun i =>
        decide ((date :: dates)[i]?.join.map Month.ofTimestamp = some m)) =
      ((List.range dates.length).filter fun i =>
        decide (dates[i]?.join.map Month.ofTimestamp = some m)).map
          Nat.succ := by
    rw [List.filter_map]
    rfl
  have hvalues (rows : List Nat) :
      (rows.map Nat.succ).map (fun i => column[i]?.join.getD 0.0) =
        rows.map fun i => column.tail[i]?.join.getD 0.0 := by
    simp
  rw [valuesIn, List.length_cons, List.range_succ_eq_map, List.filter_cons,
    htail]
  by_cases hdate : date.map Month.ofTimestamp = some m
  · simp [hdate, hhead, valuesIn]
  · simp [hdate, valuesIn]

/-! ## The sums of one month -/

/-- The sums of a month, zeros if there is no row of it. -/
def total (width : Nat) (sums : MonthSums) (m : Month) : List Float :=
  (sums.lookup m).getD (zeros width)

structure WellFormed (width : Nat) (sums : MonthSums) : Prop where
  ascending : sums.Pairwise fun a b => a.1.before b.1 = true
  width : ∀ row ∈ sums, row.2.length = width

theorem wellFormed_nil : WellFormed width [] :=
  ⟨List.Pairwise.nil, by simp⟩

theorem WellFormed.tail {row : Month × List Float}
    (h : WellFormed width (row :: sums)) : WellFormed width sums :=
  ⟨(List.pairwise_cons.mp h.ascending).2, fun r hr =>
    h.width r (List.mem_cons_of_mem _ hr)⟩

theorem lookup_eq_none (h : ∀ row ∈ sums, m ≠ row.1) :
    sums.lookup m = none := by
  rw [List.lookup_eq_none_iff]
  intro row hrow
  simpa using h row hrow

theorem lookup_cons_of_ne {k : Month} (h : k ≠ m) (values : List Float)
    (sums : MonthSums) :
    List.lookup k ((m, values) :: sums) = sums.lookup k := by
  have hb : (k == m) = false := by simpa using h
  rw [List.lookup_cons, hb]

theorem lookup_of_mem {values : List Float} (h : WellFormed width sums)
    (hmem : (m, values) ∈ sums) : sums.lookup m = some values := by
  induction sums with
  | nil => contradiction
  | cons row rest ih =>
      rcases List.mem_cons.mp hmem with rfl | hmem
      · simp
      · have hbefore := (List.pairwise_cons.mp h.ascending).1 _ hmem
        rw [lookup_cons_of_ne (Month.ne_of_before hbefore).symm]
        exact ih h.tail hmem

theorem length_total (h : WellFormed width sums) (m : Month) :
    (total width sums m).length = width := by
  rw [total]
  cases hlookup : sums.lookup m with
  | none => simp [zeros]
  | some values =>
      obtain ⟨before, after, rfl, -⟩ := List.lookup_eq_some_iff.mp hlookup
      exact h.width (m, values) (by simp)

/-! ## Adding a row -/

section Add

variable {values : List Float}

theorem mem_add {row : Month × List Float} (h : row ∈ add m values sums) :
    row.1 = m ∨ row ∈ sums := by
  induction sums with
  | nil =>
      obtain rfl := List.mem_singleton.mp h
      exact .inl rfl
  | cons first rest ih =>
      rw [add] at h
      split at h
      · rename_i heq
        rcases List.mem_cons.mp h with rfl | h
        · exact .inl heq.symm
        · exact .inr (List.mem_cons_of_mem _ h)
      · split at h
        · rcases List.mem_cons.mp h with rfl | h
          · exact .inl rfl
          · exact .inr h
        · rcases List.mem_cons.mp h with rfl | h
          · exact .inr (List.mem_cons_self ..)
          · exact (ih h).imp_right (List.mem_cons_of_mem _)

theorem WellFormed.add (h : WellFormed width sums)
    (hvalues : values.length = width) :
    WellFormed width (add m values sums) := by
  induction sums with
  | nil =>
      refine ⟨List.pairwise_singleton .., fun row hrow => ?_⟩
      obtain rfl := List.mem_singleton.mp hrow
      simp [zeros, hvalues]
  | cons first rest ih =>
      obtain ⟨hfirst, hrest⟩ := List.pairwise_cons.mp h.ascending
      have hwidth := h.width first (List.mem_cons_self ..)
      rw [MonthSums.add]
      split
      · refine ⟨List.pairwise_cons.mpr ⟨hfirst, hrest⟩, fun row hrow => ?_⟩
        rcases List.mem_cons.mp hrow with rfl | hrow
        · simp [hwidth, hvalues]
        · exact h.width row (List.mem_cons_of_mem _ hrow)
      · rename_i hne
        split
        · rename_i hbefore
          refine ⟨List.pairwise_cons.mpr ⟨fun row hrow => ?_, h.ascending⟩,
            fun row hrow => ?_⟩
          · rcases List.mem_cons.mp hrow with rfl | hrow
            · exact hbefore
            · exact Month.before_trans hbefore (hfirst row hrow)
          · rcases List.mem_cons.mp hrow with rfl | hrow
            · simp [zeros, hvalues]
            · exact h.width row hrow
        · rename_i hafter
          have hadded := ih h.tail
          refine ⟨List.pairwise_cons.mpr ⟨fun row hrow => ?_,
            hadded.ascending⟩, fun row hrow => ?_⟩
          · rcases mem_add hrow with heq | hrow
            · rw [heq]
              exact Month.before_of_not_before hne hafter
            · exact hfirst row hrow
          · rcases List.mem_cons.mp hrow with rfl | hrow
            · exact hwidth
            · exact hadded.width row hrow

private theorem lookup_add (h : WellFormed width sums)
    (hvalues : values.length = width) (k : Month) :
    (add m values sums).lookup k =
      if k = m then some ((total width sums m).zipWith (· + ·) values)
      else sums.lookup k := by
  induction sums with
  | nil =>
      by_cases hk : k = m
      · simp [add, hk, total, hvalues]
      · rw [add, lookup_cons_of_ne hk, if_neg hk]
  | cons first rest ih =>
      obtain ⟨month, current⟩ := first
      obtain ⟨hfirst, -⟩ := List.pairwise_cons.mp h.ascending
      rw [add]
      split
      · rename_i heq
        subst heq
        by_cases hk : k = m
        · simp [hk, total]
        · rw [lookup_cons_of_ne hk, if_neg hk, lookup_cons_of_ne hk]
      · rename_i hne
        split
        · rename_i hbefore
          have hnone : ((month, current) :: rest).lookup m = none := by
            refine lookup_eq_none fun row hrow => ?_
            rcases List.mem_cons.mp hrow with rfl | hrow
            · exact hne
            · exact Month.ne_of_before
                (Month.before_trans hbefore (hfirst row hrow))
          by_cases hk : k = m
          · simp [hk, total, hnone, hvalues]
          · rw [lookup_cons_of_ne hk, if_neg hk]
        · have htotal : total width ((month, current) :: rest) m =
              total width rest m := by
            rw [total, lookup_cons_of_ne hne, total]
          rw [htotal]
          by_cases hk : k = month
          · subst hk
            simp [Ne.symm hne]
          · rw [lookup_cons_of_ne hk, ih h.tail, lookup_cons_of_ne hk]

theorem total_add (h : WellFormed width sums) (hvalues : values.length = width)
    (k : Month) :
    total width (add m values sums) k =
      if k = m then (total width sums m).zipWith (· + ·) values
      else total width sums k := by
  rw [total, lookup_add h hvalues]
  split <;> rfl

end Add

/-! ## Adding all rows -/

private theorem zipWith_zipWith_map {α β γ δ : Type} (f : α → γ → α)
    (g : α → β → α) (h : δ → β) (k : δ → γ) (l : List α) (l' : List δ) :
    List.zipWith f (List.zipWith g l (l'.map h)) (l'.map k) =
      List.zipWith (fun a c => f (g a (h c)) (k c)) l l' := by
  induction l generalizing l' with
  | nil => simp
  | cons a l ih =>
      cases l' with
      | nil => rfl
      | cons c l' => simp [ih]

theorem wellFormed_addRows (dates : List (Option Timestamp))
    {columns : List (List (Option Float))} (hwidth : columns.length = width)
    (h : WellFormed width sums) :
    WellFormed width (addRows sums dates columns) := by
  induction dates generalizing sums columns with
  | nil => exact h
  | cons date dates ih =>
      have htail : (columns.map List.tail).length = width := by simpa
      cases date with
      | none => exact ih htail h
      | some t => exact ih htail (h.add (by simpa))

private theorem total_addRows (dates : List (Option Timestamp))
    {columns : List (List (Option Float))} (hwidth : columns.length = width)
    (h : WellFormed width sums) (m : Month) :
    total width (addRows sums dates columns) m =
      (total width sums m).zipWith
        (fun start column => (valuesIn m dates column).foldl (· + ·) start)
        columns := by
  induction dates generalizing sums columns with
  | nil =>
      refine List.ext_getElem ?_ fun i hi hi' => ?_
      · simp [addRows, length_total h, hwidth]
      · simp [addRows, valuesIn]
  | cons date dates ih =>
      have htail : (columns.map List.tail).length = width := by simpa
      cases date with
      | none =>
          rw [addRows, ih htail h, List.zipWith_map_right]
          simp only [valuesIn_cons, Option.map_none, reduceCtorEq, if_false,
            List.nil_append]
      | some t =>
          have hvalues : (columns.map headValue).length = width := by simpa
          rw [addRows, ih htail (h.add hvalues), total_add h hvalues]
          simp only [valuesIn_cons, Option.map_some, Option.some.injEq,
            eq_comm (a := Month.ofTimestamp t)]
          by_cases hm : m = Month.ofTimestamp t
          · simp only [hm, if_true, zipWith_zipWith_map, List.cons_append,
              List.nil_append, List.foldl_cons]
          · simp only [hm, if_false, List.nil_append, List.zipWith_map_right]

private theorem total_addRows_nil (dates : List (Option Timestamp))
    (columns : List (List (Option Float))) (m : Month) :
    total columns.length (addRows [] dates columns) m =
      columns.map (sumIn m dates) := by
  have hzeros : total columns.length [] m =
      List.replicate columns.length 0.0 := rfl
  rw [total_addRows dates rfl wellFormed_nil, hzeros]
  refine List.ext_getElem (by simp) fun i hi hi' => ?_
  simp [sumIn]

/-! ## The rows of both axes -/

section Rows

variable {dates : List (Option Timestamp)}
  {columns : List (List (Option Float))} {axis : MonthAxis} {dropZero : Bool}
  {row : Month × List Float}

theorem mem_filled {width : Nat} (h : row ∈ filled width sums) :
    row.1.IsCalendar ∧ row.2 = total width sums row.1 := by
  rw [filled] at h
  split at h
  · obtain ⟨m, hm, rfl⟩ := List.mem_map.mp h
    exact ⟨Month.isCalendar_of_mem_run hm, rfl⟩
  · contradiction

private theorem isCalendar_of_mem_addRows (dates : List (Option Timestamp))
    (columns : List (List (Option Float)))
    (h : ∀ row ∈ sums, row.1.IsCalendar) :
    ∀ row ∈ addRows sums dates columns, row.1.IsCalendar := by
  induction dates generalizing sums columns with
  | nil => exact h
  | cons date dates ih =>
      cases date with
      | none => exact ih (columns.map List.tail) h
      | some t =>
          refine ih (columns.map List.tail) fun row hrow => ?_
          rcases mem_add hrow with heq | hrow
          · rw [heq]
            exact Month.isCalendar_ofTimestamp t
          · exact h row hrow

theorem mem_ofColumns (h : row ∈ ofColumns dates columns axis dropZero) :
    row.1.IsCalendar ∧ row.2 = columns.map (sumIn row.1 dates) := by
  have hmem := (List.mem_filter.mp h).1
  cases axis with
  | occurring =>
      have hlookup := lookup_of_mem
        (wellFormed_addRows dates rfl wellFormed_nil) hmem
      refine ⟨isCalendar_of_mem_addRows dates columns (by simp) row hmem, ?_⟩
      rw [← total_addRows_nil, total, hlookup]
      rfl
  | continuous =>
      obtain ⟨hcalendar, hsums⟩ := mem_filled hmem
      exact ⟨hcalendar, hsums.trans (total_addRows_nil dates columns row.1)⟩

end Rows

end MonthSums

/-! ## Columns by name -/

namespace Monthly

theorem value?_map {m : Monthly} {f : String → Float} {i : Nat} {month : Month}
    {column : String} (hrow : m.rows[i]? = some (month, m.columns.map f))
    (hcolumn : column ∈ m.columns) : m.value? i column = some (f column) := by
  have hsome : (m.columns.findIdx? (· = column)).isSome = true := by
    rw [List.findIdx?_isSome]
    exact List.any_eq_true.mpr ⟨column, hcolumn, by simp⟩
  obtain ⟨position, hposition⟩ := Option.isSome_iff_exists.mp hsome
  obtain ⟨hlt, heq, -⟩ := List.findIdx?_eq_some_iff_getElem.mp hposition
  have hname : m.columns[position] = column := by simpa using heq
  simp [value?, hposition, hrow, hlt, hname]

end Monthly

namespace Dataset

variable {d : Dataset}

def numericOf (d : Dataset) (name : String) : List (Option Float) :=
  ((d.column? name).map (·.values.numeric)).getD []

def monthSum (d : Dataset) (dates : List (Option Timestamp)) (m : Month)
    (column : String) : Float :=
  MonthSums.sumIn m dates (d.numericOf column)

theorem numbersOf_of_contains {name : String} (h : d.contains name = true) :
    d.numbersOf name = .ok (d.numericOf name) := by
  obtain ⟨c, hc⟩ := Option.isSome_iff_exists.mp h
  rw [numbersOf, numericOf, hc]
  rfl

private theorem mapM_numbersOf {names : List String}
    (h : ∀ name ∈ names, d.contains name = true) :
    names.mapM d.numbersOf = .ok (names.map d.numericOf) := by
  induction names with
  | nil => rfl
  | cons name names ih =>
      rw [List.mapM_cons, numbersOf_of_contains (h name (by simp)),
        ih fun n hn => h n (List.mem_cons_of_mem _ hn)]
      rfl

theorem isDateColumn_iff {name : String} :
    d.isDateColumn name = true ↔ ∃ dates, d.dates? name = some dates := by
  rw [isDateColumn, dates?]
  cases d.column? name with
  | none => simp
  | some c =>
      obtain ⟨_, _, values⟩ := c
      cases values <;> simp [Values.areDates]

theorem monthly_of_contains {x : String} {dates : List (Option Timestamp)}
    {names : List String} (hdates : d.dates? x = some dates) (hne : names ≠ [])
    (h : ∀ name ∈ names, d.contains name = true) (axis : MonthAxis)
    (dropZero : Bool) :
    d.monthly x names axis dropZero = .ok ⟨names,
      .ofColumns dates (names.map d.numericOf) axis dropZero⟩ := by
  have hempty : names.isEmpty = false := by simpa using hne
  rw [monthly, hdates]
  simp only [hempty, mapM_numbersOf h]
  rfl

end Dataset

end Chartbook
