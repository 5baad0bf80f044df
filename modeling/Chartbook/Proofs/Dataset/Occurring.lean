import Chartbook.Proofs.Dataset.Monthly
import Mathlib.Data.List.Sort

/-!
# Sums of the months that occur

Sums by month are determined by what they have to be: one row for each month in
which there is a date, by ascending month, with the sums of the rows dated in
that month.  A request for them fails only because of the columns it names.
-/

namespace Chartbook

namespace MonthSums

variable {dates : List (Option Timestamp)}
  {columns : List (List (Option Float))} {sums sums' : MonthSums} {m : Month}

def Occurs (m : Month) (dates : List (Option Timestamp)) : Prop :=
  ∃ t, some t ∈ dates ∧ Month.ofTimestamp t = m

/-- The months that occur, each in one row with the sums of its rows. -/
structure IsByMonth (dates : List (Option Timestamp))
    (columns : List (List (Option Float))) (sums : MonthSums) : Prop where
  ascending : sums.Pairwise fun a b => a.1.before b.1 = true
  months : ∀ m, m ∈ sums.map Prod.fst ↔ Occurs m dates
  values : ∀ row ∈ sums, row.2 = columns.map (sumIn row.1 dates)

private theorem not_occurs_nil : ¬Occurs m [] := by
  rintro ⟨t, ht, -⟩
  contradiction

private theorem occurs_cons {date : Option Timestamp} :
    Occurs m (date :: dates) ↔
      date.map Month.ofTimestamp = some m ∨ Occurs m dates := by
  simp [Occurs, or_and_right, exists_or, eq_comm (b := date)]

theorem mem_months_add (k : Month) (values : List Float) (sums : MonthSums) :
    m ∈ (add k values sums).map Prod.fst ↔
      m = k ∨ m ∈ sums.map Prod.fst := by
  induction sums with
  | nil => simp [add]
  | cons first rest ih =>
      rw [add]
      split
      · rename_i heq
        simp [heq]
      · split
        · simp
        · simp only [List.map_cons, List.mem_cons, ih]
          exact or_left_comm

theorem mem_months_addRows (dates : List (Option Timestamp)) :
    m ∈ (addRows sums dates columns).map Prod.fst ↔
      m ∈ sums.map Prod.fst ∨ Occurs m dates := by
  induction dates generalizing sums columns with
  | nil => simp [addRows, not_occurs_nil]
  | cons date dates ih =>
      rw [occurs_cons]
      cases date with
      | none => simp [addRows, ih]
      | some t =>
          rw [addRows, ih, mem_months_add, Option.map_some,
            Option.some.injEq, eq_comm, or_assoc, or_left_comm]

theorem ofColumns_occurring (dates : List (Option Timestamp))
    (columns : List (List (Option Float))) :
    ofColumns dates columns .occurring false = addRows [] dates columns := by
  simp [ofColumns]

theorem isByMonth_ofColumns (dates : List (Option Timestamp))
    (columns : List (List (Option Float))) :
    IsByMonth dates columns (ofColumns dates columns .occurring false) where
  ascending := by
    rw [ofColumns_occurring]
    exact (wellFormed_addRows dates rfl wellFormed_nil).ascending
  months := fun m => by
    rw [ofColumns_occurring, mem_months_addRows]
    simp
  values := fun row hrow => (mem_ofColumns hrow).2

theorem eq_of_ascending {months months' : List Month}
    (h : months.Pairwise fun a b => a.before b = true)
    (h' : months'.Pairwise fun a b => a.before b = true)
    (hmem : ∀ m, m ∈ months ↔ m ∈ months') : months = months' := by
  have : Std.Irrefl fun a b : Month => a.before b = true :=
    ⟨fun a ha => Month.ne_of_before ha rfl⟩
  have : Std.Antisymm fun a b : Month => a.before b = true :=
    ⟨fun a b hab hba =>
      absurd rfl (Month.ne_of_before (Month.before_trans hab hba))⟩
  exact h.eq_of_mem_iff h' hmem

namespace IsByMonth

private theorem eq_map_months (h : IsByMonth dates columns sums) :
    sums = (sums.map Prod.fst).map fun m =>
      (m, columns.map (sumIn m dates)) := by
  rw [List.map_map]
  refine (List.map_id sums).symm.trans (List.map_congr_left fun row hrow => ?_)
  exact Prod.ext rfl (h.values row hrow)

theorem unique (h : IsByMonth dates columns sums)
    (h' : IsByMonth dates columns sums') : sums = sums' := by
  have hmonths : sums.map Prod.fst = sums'.map Prod.fst :=
    eq_of_ascending (List.pairwise_map.mpr h.ascending)
      (List.pairwise_map.mpr h'.ascending)
      fun m => (h.months m).trans (h'.months m).symm
  rw [h.eq_map_months, hmonths, ← h'.eq_map_months]

theorem isCalendar (h : IsByMonth dates columns sums)
    {row : Month × List Float} (hrow : row ∈ sums) : row.1.IsCalendar := by
  obtain ⟨t, -, ht⟩ := (h.months row.1).mp (List.mem_map_of_mem hrow)
  rw [← ht]
  exact Month.isCalendar_ofTimestamp t

theorem hasLabel (h : IsByMonth dates columns sums)
    {row : Month × List Float} (hrow : row ∈ sums)
    (hyear : 0 ≤ row.1.year ∧ row.1.year ≤ 9999) : row.1.HasLabel :=
  ⟨h.isCalendar hrow, hyear⟩

theorem pairwise_text_lt (h : IsByMonth dates columns sums)
    (hyears : ∀ row ∈ sums, 0 ≤ row.1.year ∧ row.1.year ≤ 9999) :
    (sums.map (·.1.text)).Pairwise (· < ·) := by
  rw [List.pairwise_map]
  refine h.ascending.imp_of_mem fun {a b} ha hb hbefore => ?_
  exact (h.hasLabel ha (hyears a ha)).text_lt (h.hasLabel hb (hyears b hb))
    hbefore

end IsByMonth

theorem isByMonth_iff :
    IsByMonth dates columns sums ↔
      sums = ofColumns dates columns .occurring false := by
  constructor
  · intro h
    exact h.unique (isByMonth_ofColumns dates columns)
  · rintro rfl
    exact isByMonth_ofColumns dates columns

end MonthSums

namespace Dataset

open MonthSums

variable {d : Dataset} {x : String} {names : List String}
  {dates : List (Option Timestamp)}

private theorem mapM_numbersOf_of_missing {name : String}
    (h : names.find? (fun n => !d.contains n) = some name) :
    names.mapM d.numbersOf = .error (AggregationFault.noColumn name).error := by
  induction names with
  | nil => contradiction
  | cons n names ih =>
      rw [List.mapM_cons]
      cases hn : d.contains n with
      | true =>
          rw [List.find?_cons_of_neg (by simp [hn])] at h
          rw [numbersOf_of_contains hn, ih h]
          rfl
      | false =>
          rw [List.find?_cons_of_pos (by simp [hn])] at h
          obtain rfl := Option.some.inj h
          have hnone : d.column? n = none := by
            simpa [contains] using hn
          rw [numbersOf, hnone]
          rfl

theorem monthly_nil (hdates : d.dates? x = some dates) (axis : MonthAxis)
    (dropZero : Bool) : d.monthly x [] axis dropZero = .ok ⟨[], []⟩ := by
  rw [monthly, hdates]
  rfl

theorem monthly_eq_error_iff {axis : MonthAxis} {dropZero : Bool} {e : Error} :
    d.monthly x names axis dropZero = .error e ↔
      (d.dates? x = none ∧ e = (AggregationFault.notDates x).error) ∨
      ((d.dates? x).isSome = true ∧
        ∃ name, names.find? (fun n => !d.contains n) = some name ∧
          e = (AggregationFault.noColumn name).error) := by
  cases hdates : d.dates? x with
  | none =>
      rw [monthly, hdates]
      simp [eq_comm]
  | some dates =>
      by_cases hne : names = []
      · simp [hne, monthly_nil hdates]
      · cases hmissing : names.find? (fun n => !d.contains n) with
        | none =>
            have hcontains : ∀ n ∈ names, d.contains n = true := by
              simpa using List.find?_eq_none.mp hmissing
            simp [monthly_of_contains hdates hne hcontains]
        | some name =>
            have hempty : names.isEmpty = false := by simpa using hne
            have herror : d.monthly x names axis dropZero =
                .error (AggregationFault.noColumn name).error := by
              rw [monthly, hdates]
              simp only [hempty, mapM_numbersOf_of_missing hmissing]
              rfl
            simp [herror, eq_comm]

theorem monthly_eq_ok_iff {axis : MonthAxis} {dropZero : Bool} {m : Monthly} :
    d.monthly x names axis dropZero = .ok m ↔
      ∃ dates, d.dates? x = some dates ∧
        (∀ name ∈ names, d.contains name = true) ∧
        m = ⟨names, if names = [] then []
          else ofColumns dates (names.map d.numericOf) axis dropZero⟩ := by
  constructor
  · intro h
    cases hdates : d.dates? x with
    | none =>
        rw [monthly_eq_error_iff.mpr (.inl ⟨hdates, rfl⟩)] at h
        contradiction
    | some dates =>
        cases hmissing : names.find? (fun n => !d.contains n) with
        | some name =>
            rw [monthly_eq_error_iff.mpr
              (.inr ⟨by simp [hdates], name, hmissing, rfl⟩)] at h
            contradiction
        | none =>
            have hcontains : ∀ n ∈ names, d.contains n = true := by
              simpa using List.find?_eq_none.mp hmissing
            refine ⟨dates, rfl, hcontains, ?_⟩
            by_cases hne : names = []
            · subst hne
              rw [monthly_nil hdates] at h
              exact (Except.ok.inj h).symm
            · rw [monthly_of_contains hdates hne hcontains] at h
              rw [if_neg hne]
              exact (Except.ok.inj h).symm
  · rintro ⟨dates, hdates, hcontains, rfl⟩
    by_cases hne : names = []
    · subst hne
      exact monthly_nil hdates axis dropZero
    · rw [if_neg hne]
      exact monthly_of_contains hdates hne hcontains axis dropZero

/--
Monthly sums of existing columns over a column of dates have one row for each
month that occurs, by ascending month, with the sum of each column over the rows
dated in that month.  Labels of years with four digits are ascending as texts.
With no columns there are no rows, and on both axes nothing fails but what is
named here.
-/
theorem monthly_occurring (d : Dataset) (x : String) (names : List String) :
    (∀ m, d.monthly x names .occurring false = .ok m ↔
      ∃ dates, d.dates? x = some dates ∧
        (∀ name ∈ names, d.contains name = true) ∧ m.columns = names ∧
        if names = [] then m.rows = []
        else IsByMonth dates (names.map d.numericOf) m.rows) ∧
    (∀ m dates, d.monthly x names .occurring false = .ok m →
      d.dates? x = some dates →
      (∀ i month sums, m.rows[i]? = some (month, sums) →
        (0 ≤ month.year → month.year ≤ 9999 → month.IsLabel month.text) ∧
        ∀ name ∈ names,
          m.value? i name = some (d.monthSum dates month name)) ∧
      ((∀ row ∈ m.rows, 0 ≤ row.1.year ∧ row.1.year ≤ 9999) →
        m.months.Pairwise (· < ·))) ∧
    ∀ axis dropZero e, d.monthly x names axis dropZero = .error e ↔
      (d.dates? x = none ∧ e = (AggregationFault.notDates x).error) ∨
      ((d.dates? x).isSome = true ∧
        ∃ name, names.find? (fun n => !d.contains n) = some name ∧
          e = (AggregationFault.noColumn name).error) := by
  have hok (m : Monthly) : d.monthly x names .occurring false = .ok m ↔
      ∃ dates, d.dates? x = some dates ∧
        (∀ name ∈ names, d.contains name = true) ∧ m.columns = names ∧
        if names = [] then m.rows = []
        else IsByMonth dates (names.map d.numericOf) m.rows := by
    obtain ⟨columns, rows⟩ := m
    rw [monthly_eq_ok_iff]
    by_cases hne : names = []
    · simp [hne]
    · simp [hne, isByMonth_iff]
  refine ⟨hok, fun m dates hm hdates => ?_, fun axis dropZero e =>
    monthly_eq_error_iff⟩
  obtain ⟨dates', hdates', -, hcolumns, hrows⟩ := (hok m).mp hm
  cases hdates'.symm.trans hdates
  by_cases hne : names = []
  · rw [if_pos hne] at hrows
    simp [Monthly.months, hrows]
  · rw [if_neg hne] at hrows
    refine ⟨fun i month sums hrow => ⟨fun hyear hfour => ?_,
      fun name hname => ?_⟩, hrows.pairwise_text_lt⟩
    · have hmem := List.mem_of_getElem? hrow
      exact (hrows.hasLabel hmem ⟨hyear, hfour⟩).isLabel
    · have hsums : sums = (names.map d.numericOf).map (sumIn month dates) :=
        hrows.values _ (List.mem_of_getElem? hrow)
      rw [hsums, List.map_map, ← hcolumns] at hrow
      exact Monthly.value?_map hrow (hcolumns ▸ hname)

theorem monthly_occurring_undated :
    let dates : List (Option Timestamp) := [
      some (.ofDate ⟨2024, 2, 9, by decide⟩), none,
      some (.ofDate ⟨2023, 12, 3, by decide⟩),
      some (.ofDate ⟨2024, 2, 1, by decide⟩)]
    let d : Dataset := ⟨[⟨"data", .date, .dates dates⟩,
      ⟨"receita", .number, .numbers [some 1.5, some 100, none, some 2.5]⟩,
      ⟨"qtd", .string, .texts [.text "2", .text "3", .text "x"]⟩], 4⟩
    ∃ m, d.monthly "data" ["qtd", "receita"] .occurring false = .ok m ∧
      IsByMonth dates (["qtd", "receita"].map d.numericOf) m.rows ∧
      m.months = ["2023-12", "2024-02"] ∧ m.months.Pairwise (· < ·) ∧
      m.value? 1 "receita" =
        some (d.monthSum dates ⟨2024, 2⟩ "receita") ∧
      d.monthSum dates ⟨2024, 2⟩ "receita" = 0.0 + 1.5 + 2.5 := by
  intro dates d
  have hdates : d.dates? "data" = some dates := rfl
  have hmonthly : d.monthly "data" ["qtd", "receita"] .occurring false = _ :=
    monthly_of_contains hdates (by decide) (by decide) .occurring false
  obtain ⟨hok, hrows, -⟩ := monthly_occurring d "data" ["qtd", "receita"]
  obtain ⟨hlabelled, hascending⟩ := hrows _ dates hmonthly hdates
  obtain ⟨dates', hdates', -, -, hbyMonth⟩ := (hok _).mp hmonthly
  cases hdates'
  refine ⟨_, hmonthly, hbyMonth, by decide, hascending ?_, ?_, rfl⟩
  · decide
  · exact (hlabelled 1 ⟨2024, 2⟩ _ rfl).2 "receita" (by simp)

end Dataset

end Chartbook
