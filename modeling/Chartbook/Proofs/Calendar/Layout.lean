import Mathlib.Data.List.Basic
import Chartbook.Proofs.Calendar.Column
import Chartbook.Proofs.Calendar.Pattern

/-!
# Columns with a fixed layout

The layout of a text is fixed if it is three rows of digits of the right
lengths.  The pattern of a fixed layout reads more than the texts of that
layout: shorter rows, fields after white space and years with a sign.  A column
whose first value has a fixed layout is read by that pattern alone.
-/

namespace Chartbook

open Pattern Component

/-! ## Rows of digits between separators -/

structure IsRow (n : Nat) (ds : List Char) : Prop where
  length : ds.length = n
  digits : ∀ c ∈ ds, Number.isDigit c = true

instance (n : Nat) (ds : List Char) : Decidable (IsRow n ds) :=
  decidable_of_iff (ds.length = n ∧ ds.all Number.isDigit = true)
    ⟨fun h => ⟨h.1, List.all_eq_true.mp h.2⟩,
      fun h => ⟨h.length, List.all_eq_true.mpr h.digits⟩⟩

inductive IsGroups (sep : Char) (l m n : Nat) : List Char → Prop
  | mk {ds₁ ds₂ ds₃ : List Char} (first : IsRow l ds₁) (second : IsRow m ds₂)
      (third : IsRow n ds₃) :
      IsGroups sep l m n (ds₁ ++ sep :: (ds₂ ++ sep :: ds₃))

theorem IsRow.not_mem {n : Nat} {ds : List Char} (h : IsRow n ds) {x : Char}
    (hx : Number.isDigit x = false) : x ∉ ds :=
  Number.not_mem_of_digits h.digits hx

theorem IsRow.isNumeral {n k : Nat} {ds : List Char} (h : IsRow n ds)
    (hpos : 0 < n) (hle : n ≤ k) : IsNumeral k ds where
  ne_nil := List.ne_nil_of_length_pos (by rw [h.length]; exact hpos)
  digits := h.digits
  length_le := by rwa [h.length]

namespace IsGroups

variable {sep : Char} {l m n : Nat} {s : List Char}

theorem length_eq (h : IsGroups sep l m n s) : s.length = l + m + n + 2 := by
  cases h with
  | mk first second third =>
      simp only [List.length_append, List.length_cons, first.length,
        second.length, third.length]
      omega

theorem countP_isDigit (h : IsGroups sep l m n s)
    (hsep : Number.isDigit sep = false) :
    s.countP Number.isDigit = l + m + n := by
  cases h with
  | mk first second third =>
      have hsep' : ¬Number.isDigit sep = true := by simp [hsep]
      rw [List.countP_append, List.countP_cons_of_neg hsep',
        List.countP_append, List.countP_cons_of_neg hsep',
        List.countP_eq_length.mpr first.digits,
        List.countP_eq_length.mpr second.digits,
        List.countP_eq_length.mpr third.digits, first.length, second.length,
        third.length]
      omega

end IsGroups

theorem isGroups_of_spells {a b c : Component} {sep : Char} {s : List Char}
    {u v w : Int} (h : Spells a b c sep s u v w)
    (hsep : Number.isDigit sep = false)
    (hlength : s.length = width a + width b + width c + 2)
    (hdigits : s.countP Number.isDigit = width a + width b + width c) :
    IsGroups sep (width a) (width b) (width c) s := by
  cases h with
  | @mk s₁ s₂ s₃ _ _ _ first second third =>
      have hsep' : ¬Number.isDigit sep = true := by simp [hsep]
      rw [List.countP_append, List.countP_cons_of_neg hsep',
        List.countP_append, List.countP_cons_of_neg hsep'] at hdigits
      simp only [List.length_append, List.length_cons] at hlength
      have h₁ := List.countP_le_length (p := Number.isDigit) (l := s₁)
      have h₂ := List.countP_le_length (p := Number.isDigit) (l := s₂)
      have h₃ := List.countP_le_length (p := Number.isDigit) (l := s₃)
      have hfirst := List.countP_eq_length.mp
        (by omega : s₁.countP Number.isDigit = s₁.length)
      have hsecond := List.countP_eq_length.mp
        (by omega : s₂.countP Number.isDigit = s₂.length)
      have hthird := List.countP_eq_length.mp
        (by omega : s₃.countP Number.isDigit = s₃.length)
      have hle₁ := (first.isNumeral hfirst).1.length_le
      have hle₂ := (second.isNumeral hsecond).1.length_le
      have hle₃ := (third.isNumeral hthird).1.length_le
      exact .mk ⟨by omega, hfirst⟩ ⟨by omega, hsecond⟩ ⟨by omega, hthird⟩

namespace Layout

variable {s text : List Char} {layout : Layout} {d : Date} {t : Timestamp}

theorem detect_eq_iso_iff : detect s = iso ↔ IsGroups '-' 4 2 2 s := by
  constructor
  · intro h
    unfold detect at h
    split at h
    · rename_i a b c d e f g h' i j
      split at h
      · rename_i hshape
        obtain ⟨rfl, rfl, hdigits⟩ := hshape
        simp only [List.all_cons, List.all_nil, Bool.and_true,
          Bool.and_eq_true] at hdigits
        obtain ⟨ha, hb, hc, hd, hf, hg, hi, hj⟩ := hdigits
        have first : IsRow 4 [a, b, c, d] := ⟨rfl, by simp [ha, hb, hc, hd]⟩
        have second : IsRow 2 [f, g] := ⟨rfl, by simp [hf, hg]⟩
        have third : IsRow 2 [i, j] := ⟨rfl, by simp [hi, hj]⟩
        exact .mk first second third
      · split at h <;> contradiction
    · contradiction
  · intro h
    cases h with
    | mk first second third =>
        obtain ⟨a, b, c, d, rfl⟩ := List.length_eq_four.mp first.length
        obtain ⟨f, g, rfl⟩ := List.length_eq_two.mp second.length
        obtain ⟨i, j, rfl⟩ := List.length_eq_two.mp third.length
        have hfirst := first.digits
        have hsecond := second.digits
        have hthird := third.digits
        simp only [List.forall_mem_cons] at hfirst hsecond hthird
        simp [detect, hfirst, hsecond, hthird]

theorem detect_eq_dayMonthYear_iff :
    detect s = dayMonthYear ↔ IsGroups '/' 2 2 4 s := by
  constructor
  · intro h
    unfold detect at h
    split at h
    · rename_i a b c d e f g h' i j
      split at h
      · contradiction
      · split at h
        · rename_i hshape
          obtain ⟨rfl, rfl, hdigits⟩ := hshape
          simp only [List.all_cons, List.all_nil, Bool.and_true,
            Bool.and_eq_true] at hdigits
          obtain ⟨ha, hb, hd, he, hg, hh, hi, hj⟩ := hdigits
          have first : IsRow 2 [a, b] := ⟨rfl, by simp [ha, hb]⟩
          have second : IsRow 2 [d, e] := ⟨rfl, by simp [hd, he]⟩
          have third : IsRow 4 [g, h', i, j] :=
            ⟨rfl, by simp [hg, hh, hi, hj]⟩
          exact .mk first second third
        · contradiction
    · contradiction
  · intro h
    cases h with
    | mk first second third =>
        obtain ⟨a, b, rfl⟩ := List.length_eq_two.mp first.length
        obtain ⟨d, e, rfl⟩ := List.length_eq_two.mp second.length
        obtain ⟨g, h, i, j, rfl⟩ := List.length_eq_four.mp third.length
        have hfirst := first.digits
        have hsecond := second.digits
        have hthird := third.digits
        simp only [List.forall_mem_cons] at hfirst hsecond hthird
        have he : e ≠ '-' := by
          rintro rfl
          exact absurd hsecond.2.1 (by decide)
        simp [detect, hfirst, hsecond, hthird, he]

/-! ## Reading with a fixed layout -/

/-- The texts that a fixed layout reads, with the dates that they stand for. -/
def Spells : Layout → List Char → Date → Prop
  | iso, s, d => Pattern.Spells year month day '-' s d.year d.month d.day
  | dayMonthYear, s, d =>
      Pattern.Spells day month year '/' s d.day d.month d.year
  | mixed, _, _ => False

theorem read_eq_some_iff (hfixed : layout ≠ mixed) :
    layout.read s = some t ↔
      ∃ d, layout.Spells s d ∧ Timestamp.ofDate d = t := by
  cases layout with
  | iso => exact threeFields_day?_eq_some_iff .yearFirst rfl
  | dayMonthYear => exact threeFields_day?_eq_some_iff .dayFirst rfl
  | mixed => contradiction

private theorem detect_eq_iff_of_spells (h : layout.Spells s d) :
    detect s = layout ↔ s.length = 10 ∧ s.countP Number.isDigit = 8 := by
  cases layout with
  | iso =>
      rw [detect_eq_iso_iff]
      exact ⟨fun hgroups => ⟨hgroups.length_eq, hgroups.countP_isDigit rfl⟩,
        fun hcounts => isGroups_of_spells h rfl hcounts.1 hcounts.2⟩
  | dayMonthYear =>
      rw [detect_eq_dayMonthYear_iff]
      exact ⟨fun hgroups => ⟨hgroups.length_eq, hgroups.countP_isDigit rfl⟩,
        fun hcounts => isGroups_of_spells h rfl hcounts.1 hcounts.2⟩
  | mixed => exact h.elim

end Layout

/-! ## Columns -/

theorem Layout.ofTexts_of_first {cells : List Cell} {first : List Char}
    (h : cells.findSome? Cell.dateText? = some first) :
    ofTexts (cells.map Cell.dateText?) = detect first := by
  have hfirst : (cells.map Cell.dateText?).findSome? id = some first := by
    rw [List.findSome?_map]
    exact h
  rw [ofTexts, hfirst]

/--
A column whose first value has a fixed layout is read by that layout alone: a
row has the date that its text spells in the layout, and no date if it spells
none.  The texts that are read need not have the layout themselves.  They have
it if they are ten characters with eight digits.
-/
theorem readDates_fixed {cells : List Cell} {dates : List (Option Timestamp)}
    {first : List Char} {layout : Layout}
    (hfirst : cells.findSome? Cell.dateText? = some first)
    (hlayout : Layout.detect first = layout) (hfixed : layout ≠ .mixed)
    (h : readDates cells = .ok dates) :
    dates.length = cells.length ∧
      ∀ (i : Nat) (c : Cell), cells[i]? = some c →
        (∀ t, dates[i]? = some (some t) ↔
          ∃ text d, c.dateText? = some text ∧ layout.Spells text d ∧
            Timestamp.ofDate d = t) ∧
        ∀ text t, c.dateText? = some text → dates[i]? = some (some t) →
          (Layout.detect text = layout ↔
            text.length = 10 ∧ text.countP Number.isDigit = 8) := by
  have hdates := readDates_eq_map h
  rw [Layout.ofTexts_of_first hfirst, hlayout] at hdates
  have hread (i : Nat) (c : Cell) (hc : cells[i]? = some c) (t : Timestamp) :
      dates[i]? = some (some t) ↔
        ∃ text d, c.dateText? = some text ∧ layout.Spells text d ∧
          Timestamp.ofDate d = t := by
    simp only [hdates, List.getElem?_map, hc, Option.map_some,
      Option.some.injEq, Option.bind_eq_some_iff,
      Layout.read_eq_some_iff hfixed, ← exists_and_left]
  refine ⟨by rw [hdates, List.length_map], fun i c hc =>
    ⟨hread i c hc, fun text t htext ht => ?_⟩⟩
  obtain ⟨text', d, htext', hspells, -⟩ := (hread i c hc t).mp ht
  cases htext.symm.trans htext'
  exact Layout.detect_eq_iff_of_spells hspells

theorem readDates_fixed_iso :
    let cells : List Cell := [.null, .text " 2024-01-15 ", .text "15/01/2024",
      .text "2024-02-30", .text "+2024-1-5"]
    ∃ dates, readDates cells = .ok dates ∧ dates.length = 5 ∧
      dates[1]? = some (some (.ofDate ⟨2024, 1, 15, by decide⟩)) ∧
      Layout.detect "2024-01-15".toList = .iso ∧ dates[2]? = some none ∧
      dates[4]? = some (some (.ofDate ⟨2024, 1, 5, by decide⟩)) ∧
      Layout.detect "+2024-1-5".toList ≠ .iso := by
  intro cells
  have hfirst : cells.findSome? Cell.dateText? = some "2024-01-15".toList :=
    rfl
  have hlayout : Layout.detect "2024-01-15".toList = .iso := by
    decide
  have hread : readDates cells = .ok [none,
      some (.ofDate ⟨2024, 1, 15, by decide⟩), none, none,
      some (.ofDate ⟨2024, 1, 5, by decide⟩)] := rfl
  obtain ⟨hlength, hrows⟩ :=
    readDates_fixed hfirst hlayout (by decide) hread
  refine ⟨_, hread, hlength, rfl, ?_, rfl, rfl, ?_⟩
  · exact ((hrows 1 _ rfl).2 _ _ rfl rfl).mpr (by decide)
  · exact fun h => absurd (((hrows 4 _ rfl).2 _ _ rfl rfl).mp h) (by decide)

theorem short_year_read_by_iso_column :
    let cells : List Cell := [.text "2024-01-15", .text "24-1-5"]
    cells.findSome? Cell.dateText? = some "2024-01-15".toList ∧
      Layout.detect "2024-01-15".toList = .iso ∧
      readDates cells = .ok [some (.ofDate ⟨2024, 1, 15, by decide⟩),
        some (.ofDate ⟨24, 1, 5, by decide⟩)] ∧
      Layout.detect "24-1-5".toList ≠ .iso := by
  intro cells
  exact ⟨rfl, by decide, rfl, by decide⟩

end Chartbook
