import Chartbook.Proofs.Calendar.DayFirst

/-!
# Dates that are written back as they are read

A text with a fixed layout is three rows of digits.  It is read exactly if they
stand for a day of the calendar, and the label of what is read has the same
digits: year, month and day with dashes between them.  So a label tells which
text was read.
-/

namespace Chartbook

open Pattern Component

/-! ## Days of the calendar -/

def IsLeap (year : Nat) : Prop := 4 ∣ year ∧ (100 ∣ year → 400 ∣ year)

/-- A day of the Gregorian calendar, which is extended to all years. -/
structure IsCalendarDay (year month day : Nat) : Prop where
  one_le_month : 1 ≤ month
  month_le : month ≤ 12
  one_le_day : 1 ≤ day
  day_le : day ≤ 28 ∨ day = 29 ∧ (month = 2 → IsLeap year) ∨
    day = 30 ∧ month ≠ 2 ∨ day = 31 ∧ month ∈ [1, 3, 5, 7, 8, 10, 12]

theorem isLeapYear_iff (year : Nat) :
    isLeapYear year = true ↔ IsLeap year := by
  simp only [isLeapYear, IsLeap, Bool.and_eq_true, Bool.or_eq_true, beq_iff_eq,
    bne_iff_ne, ne_eq]
  omega

theorem le_daysInMonth_iff {year month day : Nat} (h : 1 ≤ month)
    (h' : month ≤ 12) :
    day ≤ daysInMonth year month ↔
      day ≤ 28 ∨ day = 29 ∧ (month = 2 → IsLeap year) ∨
        day = 30 ∧ month ≠ 2 ∨ day = 31 ∧ month ∈ [1, 3, 5, 7, 8, 10, 12] := by
  rw [daysInMonth, ← isLeapYear_iff]
  by_cases hfebruary : month = 2
  · subst hfebruary
    cases isLeapYear year with
    | true =>
        simp
        omega
    | false => simp
  · simp only [hfebruary, if_false, false_imp_iff, and_true, ne_eq,
      not_false_eq_true, List.mem_cons, List.not_mem_nil, or_false]
    split <;> omega

theorem valid_iff_isCalendarDay {year month day : Nat} (hyear : year ≤ 9999) :
    Date.Valid year month day ↔ IsCalendarDay year month day := by
  constructor
  · rintro ⟨-, -, hmonth, hmonth', hday, hday'⟩
    exact ⟨hmonth, hmonth', hday, (le_daysInMonth_iff hmonth hmonth').mp hday'⟩
  · rintro ⟨hmonth, hmonth', hday, hday'⟩
    exact ⟨by omega, by omega, hmonth, hmonth', hday,
      (le_daysInMonth_iff hmonth hmonth').mpr hday'⟩

/-! ## The digits of a date -/

@[ext]
structure DateDigits where
  year : List Char
  month : List Char
  day : List Char
  isRow_year : IsRow 4 year
  isRow_month : IsRow 2 month
  isRow_day : IsRow 2 day

namespace DateDigits

variable {ds ds' : DateDigits} {layout : Layout} {text : List Char} {d : Date}

def textIn (ds : DateDigits) : Layout → List Char
  | .iso => ds.year ++ '-' :: (ds.month ++ '-' :: ds.day)
  | .dayMonthYear => ds.day ++ '/' :: (ds.month ++ '/' :: ds.year)
  | .mixed => []

def IsDay (ds : DateDigits) : Prop :=
  IsCalendarDay (Number.digitsValue ds.year) (Number.digitsValue ds.month)
    (Number.digitsValue ds.day)

def date? (ds : DateDigits) : Option Date :=
  Date.ofParts? (Number.digitsValue ds.year) (Number.digitsValue ds.month)
    (Number.digitsValue ds.day)

theorem exists_of_detect (hfixed : layout ≠ .mixed)
    (h : Layout.detect text = layout) :
    ∃ ds : DateDigits, ds.textIn layout = text := by
  cases layout with
  | iso =>
      cases Layout.detect_eq_iso_iff.mp h with
      | mk first second third => exact ⟨⟨_, _, _, first, second, third⟩, rfl⟩
  | dayMonthYear =>
      cases Layout.detect_eq_dayMonthYear_iff.mp h with
      | mk first second third => exact ⟨⟨_, _, _, third, second, first⟩, rfl⟩
  | mixed => contradiction

theorem read_textIn (ds : DateDigits) (hfixed : layout ≠ .mixed) :
    layout.read (ds.textIn layout) = ds.date?.map Timestamp.ofDate := by
  have hyear : IsNumeral (width .year) ds.year :=
    ds.isRow_year.isNumeral (by decide) le_rfl
  have hmonth : IsNumeral (width .month) ds.month :=
    ds.isRow_month.isNumeral (by decide) le_rfl
  have hday : IsNumeral (width .day) ds.day :=
    ds.isRow_day.isNumeral (by decide) le_rfl
  cases layout with
  | iso => exact day?_of_isNumeral hyear hmonth hday rfl
  | dayMonthYear => exact day?_of_isNumeral hday hmonth hyear rfl
  | mixed => contradiction

theorem digitsValue_year_le (ds : DateDigits) :
    Number.digitsValue ds.year ≤ 9999 := by
  have hlt := Number.digitsValue_lt ds.isRow_year.digits
  rw [ds.isRow_year.length] at hlt
  omega

theorem isSome_date?_iff (ds : DateDigits) :
    ds.date?.isSome = true ↔ ds.IsDay := by
  rw [IsDay, ← valid_iff_isCalendarDay ds.digitsValue_year_le, date?,
    Date.ofParts?]
  split <;> simp [*]

private theorem text_of_date? (h : ds.date? = some d) :
    d.text = ds.textIn .iso := by
  obtain ⟨hyear, hmonth, hday⟩ := Date.ofParts?_eq_some_iff.mp h
  have hle := ds.digitsValue_year_le
  have htext : Date.yearText d.year = ds.year := by
    rw [Date.yearText, hyear, if_neg (by omega), if_neg (by omega),
      List.nil_append, Int.natAbs_natCast,
      Number.padded_digitsValue (by decide) ds.isRow_year.length
        ds.isRow_year.digits]
  rw [Date.text, htext, hmonth, hday,
    Number.padded_digitsValue (by decide) ds.isRow_month.length
      ds.isRow_month.digits,
    Number.padded_digitsValue (by decide) ds.isRow_day.length
      ds.isRow_day.digits]
  simp [textIn]

private theorem label_of_date? (h : ds.date? = some d) :
    (Timestamp.ofDate d).label = String.ofList (ds.textIn .iso) := by
  have hmidnight : (Timestamp.ofDate d).time = .midnight := rfl
  rw [Timestamp.label, if_pos hmidnight, ← text_of_date? h]
  rfl

theorem eq_of_textIn_eq (hfixed : layout ≠ .mixed)
    (h : ds.textIn layout = ds'.textIn layout) : ds = ds' := by
  have hyear := ds.isRow_year.length.trans ds'.isRow_year.length.symm
  have hmonth := ds.isRow_month.length.trans ds'.isRow_month.length.symm
  have hday := ds.isRow_day.length.trans ds'.isRow_day.length.symm
  cases layout with
  | iso =>
      obtain ⟨hfirst, hrest⟩ := List.append_inj h hyear
      obtain ⟨hsecond, hthird⟩ := List.append_inj (List.cons.inj hrest).2 hmonth
      exact DateDigits.ext hfirst hsecond (List.cons.inj hthird).2
  | dayMonthYear =>
      obtain ⟨hfirst, hrest⟩ := List.append_inj h hday
      obtain ⟨hsecond, hthird⟩ := List.append_inj (List.cons.inj hrest).2 hmonth
      exact DateDigits.ext (List.cons.inj hthird).2 hsecond hfirst
  | mixed => contradiction

end DateDigits

/-! ## Columns -/

/-- Row `i` of a column that is read with a fixed layout holds a text that has
this layout itself. -/
structure Layout.IsTextAt (layout : Layout) (cells : List Cell)
    (dates : List (Option Timestamp)) (i : Nat) (text : List Char) : Prop where
  fixed : layout ≠ mixed
  column : ∃ first, cells.findSome? Cell.dateText? = some first ∧
    detect first = layout
  read : readDates cells = .ok dates
  cell : ∃ c, cells[i]? = some c ∧ c.dateText? = some text
  detected : detect text = layout

theorem Layout.IsTextAt.getElem?_eq {layout : Layout} {cells : List Cell}
    {dates : List (Option Timestamp)} {i : Nat} {text : List Char}
    (h : layout.IsTextAt cells dates i text) :
    dates[i]? = some (layout.read text) := by
  obtain ⟨first, hfirst, hlayout⟩ := h.column
  obtain ⟨c, hc, htext⟩ := h.cell
  rw [readDates_eq_map h.read, Layout.ofTexts_of_first hfirst, hlayout,
    List.getElem?_map, hc, Option.map_some, htext, Option.bind_some]

/--
A text with the fixed layout of its column is a date exactly if its digits stand
for a day of the calendar.  The label of the date has these digits, with the
year in front and dashes between them.  So no other text with the layout is read
as the same date, in this column or in another one.
-/
theorem readDates_roundTrip {layout : Layout} {cells : List Cell}
    {dates : List (Option Timestamp)} {i : Nat} {text : List Char}
    (h : layout.IsTextAt cells dates i text) :
    ∃ (ds : DateDigits) (r : Option Timestamp),
      ds.textIn layout = text ∧ dates[i]? = some r ∧
      (r.isSome = true ↔ ds.IsDay) ∧
      ∀ t, r = some t →
        t.label = String.ofList (ds.textIn .iso) ∧
        ∀ (cells' : List Cell) (dates' : List (Option Timestamp)) (j : Nat)
          (text' : List Char), layout.IsTextAt cells' dates' j text' →
          dates'[j]? = some (some t) → text' = text := by
  obtain ⟨ds, rfl⟩ := DateDigits.exists_of_detect h.fixed h.detected
  refine ⟨ds, layout.read (ds.textIn layout), rfl, h.getElem?_eq, ?_,
    fun t ht => ?_⟩
  · rw [ds.read_textIn h.fixed, Option.isSome_map, ds.isSome_date?_iff]
  · rw [ds.read_textIn h.fixed] at ht
    obtain ⟨d, hd, rfl⟩ := Option.map_eq_some_iff.mp ht
    have hlabel := DateDigits.label_of_date? hd
    refine ⟨hlabel, fun cells' dates' j text' h' ht' => ?_⟩
    obtain ⟨ds', rfl⟩ := DateDigits.exists_of_detect h'.fixed h'.detected
    rw [h'.getElem?_eq, ds'.read_textIn h'.fixed, Option.some.injEq,
      Option.map_eq_some_iff] at ht'
    obtain ⟨d', hd', heq⟩ := ht'
    have hlabel' := DateDigits.label_of_date? hd'
    rw [heq, hlabel] at hlabel'
    rw [DateDigits.eq_of_textIn_eq (by decide)
      (String.ofList_injective hlabel')]

theorem readDates_roundTrip_leapDays :
    let cells : List Cell := [.null, .text " 29/02/2000", .text "29/02/1900"]
    ∃ dates, readDates cells = .ok dates ∧
      (∃ t, dates[1]? = some (some t) ∧ t.label = "2000-02-29") ∧
      dates[2]? = some none := by
  intro cells
  have hread : readDates cells =
      .ok [none, some (.ofDate ⟨2000, 2, 29, by decide⟩), none] := rfl
  have hcolumn : ∃ first, cells.findSome? Cell.dateText? = some first ∧
      Layout.detect first = .dayMonthYear :=
    ⟨"29/02/2000".toList, rfl, by decide⟩
  have htext : Layout.dayMonthYear.IsTextAt cells _ 1 "29/02/2000".toList :=
    ⟨by decide, hcolumn, hread, ⟨_, rfl, rfl⟩, by decide⟩
  let digits : DateDigits := ⟨['2', '0', '0', '0'], ['0', '2'], ['2', '9'],
    by decide, by decide, by decide⟩
  obtain ⟨ds, r, htext', hr, -, hlabel⟩ := readDates_roundTrip htext
  obtain rfl : ds = digits := DateDigits.eq_of_textIn_eq (by decide) htext'
  cases hr
  exact ⟨_, hread, ⟨_, rfl, (hlabel _ rfl).1⟩, rfl⟩

end Chartbook
