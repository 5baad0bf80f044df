import Chartbook.Proofs.Calendar.Tolerant

/-!
# Dates with the day in front

Two short numbers and a year are read as a day, a month and the year.  Where
that is no date and the separator is a slash, they are read with the month in
front.  A short year is the year of the century around 2000.  A time of day may
follow a date with slashes; the patterns for both have no field for a short
year, so the year is then read as it is written.
-/

namespace Chartbook

open Pattern Component

/-! ## Years -/

/-- The year that is meant by two or four digits after a day and a month. -/
def fullYear (ds : List Char) : Int :=
  let n := Number.digitsValue ds
  if ds.length = 2 then if n < 70 then 2000 + n else 1900 + n else n

section Years

variable {ds : List Char}

theorem fullYear_of_long (h : IsRow 4 ds) :
    fullYear ds = Number.digitsValue ds := by
  rw [fullYear, if_neg (by rw [h.length]; decide)]

theorem fullYear_of_short (h : IsRow 2 ds) :
    fullYear ds = valueOf shortYear (Number.digitsValue ds) := by
  rw [fullYear, if_pos h.length, valueOf, centuryOf]
  split <;> rfl

theorem valid_shortYear_iff {n month day : Nat} (hn : n < 100) :
    Date.Valid (valueOf shortYear n) month day ↔ Date.Valid n month day := by
  have hleap : ∀ k < 100, isLeapYear (valueOf shortYear k) = isLeapYear k := by
    decide
  have hrange : ∀ k < 100, 0 ≤ valueOf shortYear k ∧
      valueOf shortYear k < 2100 := by
    decide
  obtain ⟨hlow, hhigh⟩ := hrange n hn
  rw [Date.Valid, Date.Valid, daysInMonth, daysInMonth, hleap n hn]
  omega

theorem valid_fullYear_iff (h : IsRow 4 ds ∨ IsRow 2 ds) {month day : Nat} :
    Date.Valid (fullYear ds) month day ↔
      Date.Valid (Number.digitsValue ds) month day := by
  rcases h with h | h
  · rw [fullYear_of_long h]
  · have hlt := Number.digitsValue_lt h.digits
    rw [h.length] at hlt
    rw [fullYear_of_short h, valid_shortYear_iff hlt]

theorem fullYear_eq_iff (h : IsRow 4 ds ∨ IsRow 2 ds) :
    fullYear ds = Number.digitsValue ds ↔ ds.length = 4 := by
  rcases h with h | h
  · rw [fullYear_of_long h, h.length]
    simp
  · rw [fullYear, if_pos h.length, h.length]
    split <;> omega

end Years

/-! ## Readings of two numbers and a year -/

/-- The date with the day in front, or after slashes with the month in front. -/
def Date.dayFirst? (sep : Char) (year : Int) (a b : Nat) : Option Date :=
  (ofParts? year b a).or (if sep = '/' then ofParts? year a b else none)

/--
What is read from two numbers before a year: the numbers are a day and a month,
or a month and a day if that is no date and the separator is a slash.
-/
structure IsReadDayFirst (sep : Char) (year : Int) (a b : Nat)
    (r : Option Timestamp) : Prop where
  dayFirst : ∀ h : Date.Valid year b a, r = some (.ofDate ⟨year, b, a, h⟩)
  monthFirst : ¬Date.Valid year b a → sep = '/' →
    ∀ h : Date.Valid year a b, r = some (.ofDate ⟨year, a, b, h⟩)
  missing : ¬Date.Valid year b a →
    (sep = '/' → ¬Date.Valid year a b) → r = none

theorem isReadDayFirst_dayFirst? (sep : Char) (year : Int) (a b : Nat) :
    IsReadDayFirst sep year a b
      ((Date.dayFirst? sep year a b).map Timestamp.ofDate) where
  dayFirst h := by
    rw [Date.dayFirst?, Date.ofParts?, dif_pos h]
    rfl
  monthFirst hnot hsep h := by
    rw [Date.dayFirst?, Date.ofParts?, dif_neg hnot, if_pos hsep,
      Date.ofParts?, dif_pos h]
    rfl
  missing hnot hnot' := by
    rw [Date.dayFirst?, Date.ofParts?, dif_neg hnot]
    split
    · rename_i hsep
      rw [Date.ofParts?, dif_neg (hnot' hsep)]
      rfl
    · rfl

theorem Date.valid_of_dayFirst? {sep : Char} {year : Int} {a b : Nat}
    {d : Date} (h : dayFirst? sep year a b = some d) (hday : d.day = a)
    (hmonth : d.month = b) : d.year = year ∧ Valid year b a := by
  have hyear : d.year = year := by
    rw [dayFirst?, Option.or_eq_some_iff] at h
    rcases h with h | ⟨-, h⟩
    · exact (ofParts?_eq_some_iff.mp h).1
    · split at h
      · exact (ofParts?_eq_some_iff.mp h).1
      · contradiction
  refine ⟨hyear, ?_⟩
  rw [← hyear, ← hday, ← hmonth]
  exact d.valid

section Numerals

variable {sep : Char} {a b y : List Char}

theorem isGroups_of_isNumeral {n : Nat} (ha : IsNumeral 2 a)
    (hb : IsNumeral 2 b) (hy : IsRow n y) :
    IsGroups sep a.length b.length n (a ++ sep :: (b ++ sep :: y)) :=
  .mk ⟨rfl, ha.digits⟩ ⟨rfl, hb.digits⟩ hy

theorem day?_of_isNumeral {p q r : Component} (ha : IsNumeral (width p) a)
    (hb : IsNumeral (width q) b) (hy : IsNumeral (width r) y)
    (hsep : Number.isDigit sep = false) :
    (threeFields p q r sep).day? (a ++ sep :: (b ++ sep :: y)) =
      (((({} : Parts).set p (valueOf p (Number.digitsValue a))).set q
        (valueOf q (Number.digitsValue b))).set r
        (valueOf r (Number.digitsValue y))).date?.map Timestamp.ofDate :=
  day?_of_spells
    (.mk (.of_isNumeral ha) (.of_isNumeral hb) (.of_isNumeral hy)) hsep

theorem Timestamp.ofText?_of_yearField {c : Component} {n : Nat}
    (hc : c = year ∨ c = shortYear) (hsep : sep ∈ ['/', '-', '.'])
    (ha : IsNumeral 2 a) (hb : IsNumeral 2 b) (hy : IsRow n y) (hn : 0 < n)
    (hle : n ≤ width c) {s : List Char}
    (hs : s = a ++ sep :: (b ++ sep :: y))
    (hdate : ofDateText? s = ((threeFields day month c sep).day? s).or
      (if sep = '/' then (threeFields month day c sep).day? s else none)) :
    ofText? s = (Date.dayFirst? sep (valueOf c (Number.digitsValue y))
      (Number.digitsValue a) (Number.digitsValue b)).map ofDate := by
  subst hs
  have hgroups : IsGroups sep _ _ n (a ++ sep :: (b ++ sep :: y)) :=
    isGroups_of_isNumeral ha hb hy
  have hyear : IsNumeral (width c) y := hy.isNumeral hn hle
  have hdigit := isDigit_separator hsep
  have hday : (threeFields day month c sep).day? _ = _ :=
    day?_of_isNumeral ha hb hyear hdigit
  have hmonth : (threeFields month day c sep).day? _ = _ :=
    day?_of_isNumeral ha hb hyear hdigit
  rw [ofText?_of_isGroups hgroups hsep, hdate,
    ofMonthText?_of_isGroups hgroups hsep ha.length_pos hb.length_pos hn,
    Option.or_none, hday, hmonth, Date.dayFirst?, Option.map_or]
  rcases hc with rfl | rfl <;> split <;> rfl

theorem Timestamp.ofText?_eq_dayFirst? (hsep : sep ∈ ['/', '-', '.'])
    (ha : IsNumeral 2 a) (hb : IsNumeral 2 b) (hy : IsRow 4 y ∨ IsRow 2 y) :
    ofText? (a ++ sep :: (b ++ sep :: y)) =
      (Date.dayFirst? sep (fullYear y) (Number.digitsValue a)
        (Number.digitsValue b)).map ofDate := by
  rcases hy with hy | hy
  · rw [fullYear_of_long hy]
    exact ofText?_of_yearField (.inl rfl) hsep ha hb hy (by decide)
      (by decide) rfl (ofDateText?_of_long (isGroups_of_isNumeral ha hb hy)
        hsep ha.length_pos hb.length_pos)
  · rw [fullYear_of_short hy]
    exact ofText?_of_yearField (.inr rfl) hsep ha hb hy (by decide)
      (by decide) rfl (ofDateText?_of_short (isGroups_of_isNumeral ha hb hy)
        hsep ha.length_pos hb.length_pos)

/--
Two numbers of one or two digits and a year of two or four, with one separator
between them, are read as a day, a month and a year.  If there is no such day,
they are read with the month in front where the separator is a slash, and are
not read at all otherwise.
-/
theorem ofText?_isReadDayFirst (hsep : sep ∈ ['/', '-', '.'])
    (ha : IsNumeral 2 a) (hb : IsNumeral 2 b) (hy : IsRow 4 y ∨ IsRow 2 y) :
    IsReadDayFirst sep (fullYear y) (Number.digitsValue a)
      (Number.digitsValue b)
      (Timestamp.ofText? (a ++ sep :: (b ++ sep :: y))) := by
  rw [Timestamp.ofText?_eq_dayFirst? hsep ha hb hy]
  exact isReadDayFirst_dayFirst? ..

theorem ofText?_isReadDayFirst_swapped :
    Timestamp.ofText? "5/13/2024".toList =
        some (.ofDate ⟨2024, 5, 13, by decide⟩) ∧
      Timestamp.ofText? "5-13-2024".toList = none ∧
      Timestamp.ofText? "29/02/00".toList =
        some (.ofDate ⟨2000, 2, 29, by decide⟩) := by
  have hfive : IsNumeral 2 ['5'] := by decide
  have hthirteen : IsNumeral 2 ['1', '3'] := by decide
  have hlong : IsRow 4 ['2', '0', '2', '4'] := by decide
  have hday : IsNumeral 2 ['2', '9'] := by decide
  have hmonth : IsNumeral 2 ['0', '2'] := by decide
  have hshort : IsRow 2 ['0', '0'] := by decide
  have hslash : '/' ∈ ['/', '-', '.'] := by decide
  have hdash : '-' ∈ ['/', '-', '.'] := by decide
  refine ⟨?_, ?_, ?_⟩
  · exact (ofText?_isReadDayFirst hslash hfive hthirteen
      (.inl hlong)).monthFirst (by decide) rfl (by decide)
  · exact (ofText?_isReadDayFirst hdash hfive hthirteen
      (.inl hlong)).missing (by decide) (by decide)
  · exact (ofText?_isReadDayFirst hslash hday hmonth
      (.inr hshort)).dayFirst (by decide)

end Numerals

/-! ## Times of day after a date -/

def TimeOfDay.minuteText (t : TimeOfDay) : List Char :=
  Number.padded 2 t.hour ++ ':' :: Number.padded 2 t.minute

theorem isNumeral_padded {n : Nat} (h : n < 100) :
    IsNumeral 2 (Number.padded 2 n) where
  ne_nil := List.ne_nil_of_length_pos (by
    rw [Number.length_padded (by decide) h]
    decide)
  digits _ hc := Number.isDigit_of_mem_padded hc
  length_le := (Number.length_padded (by decide) h).le

theorem isField_padded {n : Nat} (h : n < 100) {c : Component}
    (hc : c ≠ year) (blanks : List Char) (hblanks : Text.AllBlank blanks) :
    IsField c (blanks ++ Number.padded 2 n) (valueOf c n) := by
  have hfield := IsField.short hc hblanks (isNumeral_padded h)
  rwa [Number.digitsValue_padded] at hfield

namespace Pattern

open Item

variable {p : Parts} {rest : List Char} {items : List Item}

theorem readItems_hourMinute (time : TimeOfDay) (hrest : EndsNumber rest) :
    readItems p (' ' :: time.minuteText ++ rest) (gap :: hourMinute ++ items) =
      readItems { p with hour := time.hour, minute := time.minute } rest
        items := by
  obtain ⟨hhour, hminute, -, -⟩ := time.valid
  have first : IsField hour (' ' :: Number.padded 2 time.hour) time.hour :=
    isField_padded (by omega) (by decide) [' ']
      (List.forall_mem_singleton.mpr rfl)
  have second : IsField minute (Number.padded 2 time.minute) time.minute :=
    isField_padded (by omega) (by decide) []
      (List.forall_mem_nil _)
  have hcolon : EndsNumber (':' :: (Number.padded 2 time.minute ++ rest)) :=
    endsNumber_cons rfl _
  have htext : ' ' :: time.minuteText ++ rest =
      (' ' :: Number.padded 2 time.hour) ++
        ':' :: (Number.padded 2 time.minute ++ rest) := by
    simp [TimeOfDay.minuteText]
  have hitems : gap :: hourMinute ++ items =
      gap :: number hour :: literal ':' :: number minute :: items := rfl
  rw [htext, hitems, readItems_gap_field first hcolon, readItems_literal,
    readItems_field second hrest]
  rfl

theorem readItems_hourMinute_nil (time : TimeOfDay) :
    readItems p (' ' :: time.minuteText) (gap :: hourMinute) =
      some ({ p with hour := time.hour, minute := time.minute }, []) := by
  have hread : readItems p _ (gap :: hourMinute ++ []) = _ :=
    readItems_hourMinute time endsNumber_nil
  rwa [List.append_nil, List.append_nil] at hread

theorem readItems_hourMinuteSecond (time : TimeOfDay) :
    readItems p (' ' :: time.text) (gap :: hourMinuteSecond) = some
      ({ p with
          hour := time.hour, minute := time.minute, second := time.second },
        []) := by
  obtain ⟨-, -, hsecond, -⟩ := time.valid
  have third : IsField second (Number.padded 2 time.second) time.second :=
    isField_padded (by omega) (by decide) []
      (List.forall_mem_nil _)
  have hcolon : EndsNumber (':' :: (Number.padded 2 time.second ++ [])) :=
    endsNumber_cons rfl _
  have htext : ' ' :: time.text = ' ' :: time.minuteText ++
      ':' :: (Number.padded 2 time.second ++ []) := by
    simp [TimeOfDay.text, TimeOfDay.minuteText]
  have hitems : gap :: hourMinuteSecond =
      gap :: hourMinute ++ [literal ':', number second] := rfl
  rw [htext, hitems, readItems_hourMinute time hcolon, readItems_literal,
    readItems_field third endsNumber_nil]
  rfl

theorem Parts.timestamp?_eq_some {d : Date} {time : TimeOfDay}
    (hdate : p.date? = some d)
    (htime : TimeOfDay.ofParts? p.hour p.minute p.second p.nanosecond =
      some time) : p.timestamp? = some ⟨d, time⟩ := by
  rw [Parts.timestamp?, hdate, htime]
  rfl

private theorem timestamp?_dayFirst {a b y : List Char} (ha : IsNumeral 2 a)
    (hb : IsNumeral 2 b) (hy : IsNumeral 4 y) {d : Date}
    (hd : Date.ofParts? (Number.digitsValue y) (Number.digitsValue b)
      (Number.digitsValue a) = some d)
    {time : TimeOfDay} (hnanosecond : time.nanosecond = 0)
    (hrest : EndsNumber rest)
    (hread : ∀ p : Parts, p.second = 0 → readItems p rest items = some
      ({ p with
          hour := time.hour, minute := time.minute, second := time.second },
        [])) :
    (dayFirst '/' ++ items).timestamp?
      (a ++ '/' :: (b ++ '/' :: y) ++ rest) = some ⟨d, time⟩ := by
  have first : IsField day a (Number.digitsValue a) := .of_isNumeral ha
  have second : IsField month b (Number.digitsValue b) := .of_isNumeral hb
  have third : IsField year y (Number.digitsValue y) := .of_isNumeral hy
  have hdate : readItems {} _ (dayFirst '/' ++ items) = _ :=
    readItems_threeFields (.mk first second third) rfl hrest
  have htime : TimeOfDay.ofParts? time.hour time.minute time.second 0 =
      some time := by
    rw [← hnanosecond]
    exact dif_pos time.valid
  rw [timestamp?, parts?, hdate, hread _ rfl]
  exact Parts.timestamp?_eq_some hd htime

end Pattern

namespace Timestamp

variable {s : List Char} {l m n : Nat} {t : Timestamp} {time : TimeOfDay}

theorem ofText?_of_moment (h : IsGroups '/' l m n s) {middle last : List Char}
    (hlast : IsNumeral 2 last) (hdash : '-' ∉ middle)
    (hread : (momentPatterns.findSome? fun p =>
      p.timestamp? (s ++ middle ++ last)) = some t) :
    ofText? (s ++ middle ++ last) = some t := by
  have hne : s ≠ [] := by
    rintro rfl
    have hlength := h.length_eq
    simp at hlength
  have htrim : Text.trim (s ++ middle ++ last) = s ++ middle ++ last :=
    Text.trim_append_self hne hlast.ne_nil (h.isBlank_eq_false rfl)
      (fun c hc => Number.isBlank_of_isDigit (hlast.digits c hc)) middle
  have hinstant : Instant.timestamp? (s ++ middle ++ last) = none := by
    refine Instant.timestamp?_eq_none_of_not_mem (.inl ?_)
    simp only [List.mem_append, not_or]
    exact ⟨⟨h.not_mem rfl (by decide), hdash⟩,
      Number.not_mem_of_digits hlast.digits rfl⟩
  have hne : s ++ middle ++ last ≠ [] := by simp [hne]
  rw [ofText?, htrim]
  simp only [hne, if_false, hinstant, hread, Option.none_or, Option.some_or]

private theorem ofText?_of_seconds (h : IsGroups '/' l m n s)
    (hread : (dayFirst '/' ++ .gap :: hourMinuteSecond).timestamp?
      (s ++ ' ' :: time.text) = some t) :
    ofText? (s ++ ' ' :: time.text) = some t := by
  obtain ⟨-, -, hsecond, -⟩ := time.valid
  have htext : s ++ ' ' :: time.text = s ++ (' ' :: time.minuteText ++ [':']) ++
      Number.padded 2 time.second := by
    simp [TimeOfDay.text, TimeOfDay.minuteText]
  have hfirst : (momentPatterns.findSome? fun p =>
      p.timestamp? (s ++ ' ' :: time.text)) = some t := by
    rw [momentPatterns, List.findSome?_cons, hread]
  have hdash (n : Nat) : '-' ∉ Number.padded 2 n :=
    Number.not_mem_padded rfl 2 n
  rw [htext] at hfirst ⊢
  refine ofText?_of_moment h (isNumeral_padded (by omega)) ?_ hfirst
  simp [TimeOfDay.minuteText, hdash]

private theorem ofText?_of_minutes (h : IsGroups '/' l m n s)
    (hread : (dayFirst '/' ++ .gap :: hourMinute).timestamp?
      (s ++ ' ' :: time.minuteText) = some t) :
    ofText? (s ++ ' ' :: time.minuteText) = some t := by
  obtain ⟨-, hminute, -, -⟩ := time.valid
  have htext : s ++ ' ' :: time.minuteText =
      s ++ (' ' :: Number.padded 2 time.hour ++ [':']) ++
        Number.padded 2 time.minute := by
    simp [TimeOfDay.minuteText]
  have hcount : (s ++ ' ' :: time.minuteText).count ':' = 1 := by
    have hpadded (n : Nat) : (Number.padded 2 n).count ':' = 0 :=
      List.count_eq_zero.mpr (Number.not_mem_padded rfl 2 n)
    have hdate : s.count ':' = 0 := h.count_eq_zero rfl (by decide)
    simp [TimeOfDay.minuteText, hpadded, hdate]
  have hlong : (dayFirst '/' ++ .gap :: hourMinuteSecond).timestamp?
      (s ++ ' ' :: time.minuteText) = none :=
    timestamp?_eq_none_of_count (x := ':') (by rw [hcount]; decide)
  have hsecond : (momentPatterns.findSome? fun p =>
      p.timestamp? (s ++ ' ' :: time.minuteText)) = some t := by
    rw [momentPatterns, List.findSome?_cons, hlong, List.findSome?_cons, hread]
  have hdash (n : Nat) : '-' ∉ Number.padded 2 n :=
    Number.not_mem_padded rfl 2 n
  rw [htext] at hsecond ⊢
  refine ofText?_of_moment h (isNumeral_padded (by omega)) ?_ hsecond
  simp [hdash]

end Timestamp

/--
A time of day after a date with slashes is read with the day and the month of
the date, and with its year as it is written.  So the date stays the same if its
year has four digits and is another one if it has two.
-/
theorem ofText?_withTime {a b y : List Char} (ha : IsNumeral 2 a)
    (hb : IsNumeral 2 b) (hy : IsRow 4 y ∨ IsRow 2 y) {t : Timestamp}
    (h : Timestamp.ofText? (a ++ '/' :: (b ++ '/' :: y)) = some t)
    (hday : t.date.day = Number.digitsValue a)
    (hmonth : t.date.month = Number.digitsValue b) {time : TimeOfDay}
    (hnanosecond : time.nanosecond = 0) :
    ∃ d : Date, d.year = Number.digitsValue y ∧ d.month = t.date.month ∧
      d.day = t.date.day ∧ (d = t.date ↔ y.length = 4) ∧
      Timestamp.ofText? (a ++ '/' :: (b ++ '/' :: y) ++ ' ' :: time.text) =
        some ⟨d, time⟩ ∧
      (time.second = 0 →
        Timestamp.ofText? (a ++ '/' :: (b ++ '/' :: y) ++
          ' ' :: time.minuteText) = some ⟨d, time⟩) := by
  have hslash : '/' ∈ ['/', '-', '.'] := by decide
  rw [Timestamp.ofText?_eq_dayFirst? hslash ha hb hy,
    Option.map_eq_some_iff] at h
  obtain ⟨d, hd, rfl⟩ := h
  obtain ⟨hyear, hvalid⟩ := Date.valid_of_dayFirst? hd hday hmonth
  rw [valid_fullYear_iff hy] at hvalid
  have hfour : IsNumeral 4 y := by
    rcases hy with hy | hy
    · exact hy.isNumeral (by decide) (by decide)
    · exact hy.isNumeral (by decide) (by decide)
  have hparts : Date.ofParts? (Number.digitsValue y) (Number.digitsValue b)
      (Number.digitsValue a) = some ⟨_, _, _, hvalid⟩ := dif_pos hvalid
  have hgroups : IsGroups '/' _ _ y.length (a ++ '/' :: (b ++ '/' :: y)) :=
    isGroups_of_isNumeral ha hb ⟨rfl, hfour.digits⟩
  refine ⟨⟨_, _, _, hvalid⟩, rfl, hmonth.symm, hday.symm, ?_, ?_,
    fun hsecond => ?_⟩
  · have hiff := @Date.ofParts?_eq_some_iff (Number.digitsValue y)
      (Number.digitsValue b) (Number.digitsValue a) d
    rw [hparts, Option.some.injEq, hyear, fullYear_eq_iff hy] at hiff
    exact hiff.trans ⟨fun h => h.1, fun h => ⟨h, hmonth, hday⟩⟩
  · refine Timestamp.ofText?_of_seconds hgroups ?_
    exact timestamp?_dayFirst ha hb hfour hparts hnanosecond
      (endsNumber_cons rfl _) fun p _ => readItems_hourMinuteSecond time
  · refine Timestamp.ofText?_of_minutes hgroups ?_
    refine timestamp?_dayFirst ha hb hfour hparts hnanosecond
      (endsNumber_cons rfl _) fun p hp => ?_
    rw [hsecond, ← hp]
    exact readItems_hourMinute_nil time

theorem ofText?_withTime_evening :
    let s := "30/12/2024".toList
    let d : Date := ⟨2024, 12, 30, by decide⟩
    let time : TimeOfDay := ⟨18, 20, 0, 0, by decide⟩
    Timestamp.ofText? s = some (.ofDate d) ∧
      Timestamp.ofText? (s ++ ' ' :: time.text) = some ⟨d, time⟩ ∧
      Timestamp.ofText? (s ++ ' ' :: time.minuteText) = some ⟨d, time⟩ := by
  intro s d time
  have hread : Timestamp.ofText? s = some (.ofDate d) := rfl
  have ha : IsNumeral 2 ['3', '0'] := by decide
  have hb : IsNumeral 2 ['1', '2'] := by decide
  have hy : IsRow 4 ['2', '0', '2', '4'] := by decide
  have hnanosecond : time.nanosecond = 0 := rfl
  obtain ⟨d', -, -, -, hdate, hseconds, hminutes⟩ :=
    ofText?_withTime ha hb (.inl hy) hread rfl rfl hnanosecond
  rw [hdate.mpr hy.length] at hseconds hminutes
  exact ⟨hread, hseconds, hminutes rfl⟩

theorem short_year_lost_with_time :
    let s := "05/01/24".toList
    let time : TimeOfDay := ⟨10, 20, 0, 0, by decide⟩
    Timestamp.ofText? s = some (.ofDate ⟨2024, 1, 5, by decide⟩) ∧
      Timestamp.ofText? (s ++ ' ' :: time.minuteText) =
        some ⟨⟨24, 1, 5, by decide⟩, time⟩ ∧
      Timestamp.ofText? (s ++ ' ' :: time.minuteText) ≠
        some ⟨⟨2024, 1, 5, by decide⟩, time⟩ := by
  exact ⟨rfl, rfl, by decide⟩

end Chartbook
