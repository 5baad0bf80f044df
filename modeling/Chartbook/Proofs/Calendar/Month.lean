import Chartbook.Calendar.Month
import Chartbook.Proofs.Number.Digits
import Mathlib.Data.String.Basic

/-!
# Order and text of months

Months are ordered by year and number.  A month of a year with four digits is
written in seven characters, and they stand for its year and its number.  The
texts of such months are ordered as the months are.
-/

namespace Chartbook.Month

theorem before_iff {a b : Month} :
    a.before b = true ↔
      a.year < b.year ∨ (a.year = b.year ∧ a.number < b.number) := by
  simp [before]

theorem not_before_self (m : Month) : m.before m = false := by
  simp [before]

theorem before_trans {a b c : Month} (hab : a.before b = true)
    (hbc : b.before c = true) : a.before c = true := by
  rw [before_iff] at hab hbc ⊢
  omega

theorem before_of_not_before {a b : Month} (hne : a ≠ b)
    (h : ¬a.before b = true) : b.before a = true := by
  obtain ⟨year, number⟩ := a
  obtain ⟨year', number'⟩ := b
  rw [before_iff] at h ⊢
  simp only [ne_eq, mk.injEq, not_and] at hne h ⊢
  omega

theorem ne_of_before {a b : Month} (h : a.before b = true) : a ≠ b := by
  rintro rfl
  rw [not_before_self] at h
  contradiction

theorem isCalendar_ofTimestamp (t : Timestamp) : (ofTimestamp t).IsCalendar :=
  ⟨t.date.valid.2.2.1, t.date.valid.2.2.2.1⟩

theorem isCalendar_ofIndex (i : Int) : (ofIndex i).IsCalendar := by
  simp only [IsCalendar, ofIndex]
  omega

theorem isCalendar_of_mem_run {first last m : Month} (h : m ∈ run first last) :
    m.IsCalendar := by
  obtain ⟨i, -, rfl⟩ := List.mem_map.mp h
  exact isCalendar_ofIndex _

/-- A text of the form YYYY-MM for the year and the number of a month. -/
def IsLabel (m : Month) (label : String) : Prop :=
  ∃ year number : List Char,
    label.toList = year ++ '-' :: number ∧
    year.length = 4 ∧ number.length = 2 ∧
    (∀ c ∈ year ++ number, Number.isDigit c = true) ∧
    (Number.digitsValue year : Int) = m.year ∧
    Number.digitsValue number = m.number

def HasLabel (m : Month) : Prop :=
  m.IsCalendar ∧ 0 ≤ m.year ∧ m.year ≤ 9999

namespace HasLabel

variable {m : Month} (h : m.HasLabel)
include h

theorem toList_text :
    m.text.toList = Number.padded 4 m.year.natAbs ++
      '-' :: Number.padded 2 m.number := by
  obtain ⟨-, hyear, -⟩ := h
  rw [text, if_neg (by omega), String.toList_ofList]

theorem length_year : (Number.padded 4 m.year.natAbs).length = 4 := by
  obtain ⟨-, hyear, hfour⟩ := h
  exact Number.length_padded (by decide) (by omega)

theorem length_number : (Number.padded 2 m.number).length = 2 := by
  obtain ⟨⟨-, hnumber⟩, -⟩ := h
  exact Number.length_padded (by decide) (by omega)

theorem isLabel : m.IsLabel m.text := by
  refine ⟨_, _, h.toList_text, h.length_year, h.length_number, fun c hc => ?_,
    ?_, Number.digitsValue_padded 2 m.number⟩
  · rcases List.mem_append.mp hc with hc | hc
    · exact Number.isDigit_of_mem_padded hc
    · exact Number.isDigit_of_mem_padded hc
  · obtain ⟨-, hyear, -⟩ := h
    rw [Number.digitsValue_padded]
    omega

theorem text_lt {later : Month} (hlater : later.HasLabel)
    (hbefore : m.before later = true) : m.text < later.text := by
  rw [String.lt_iff_toList_lt, h.toList_text, hlater.toList_text]
  rcases before_iff.mp hbefore with hyear | ⟨hyear, hnumber⟩
  · refine Number.append_lt_append
      (fun c hc => Number.isDigit_of_mem_padded hc)
      (fun c hc => Number.isDigit_of_mem_padded hc)
      (h.length_year.trans hlater.length_year.symm) ?_ _ _
    obtain ⟨-, hzero, -⟩ := h
    rw [Number.digitsValue_padded, Number.digitsValue_padded]
    omega
  · have hless := Number.append_lt_append
      (fun c hc => Number.isDigit_of_mem_padded hc)
      (fun c hc => Number.isDigit_of_mem_padded hc)
      (h.length_number.trans hlater.length_number.symm)
      (by rwa [Number.digitsValue_padded, Number.digitsValue_padded]) [] []
    rw [List.append_nil, List.append_nil] at hless
    rw [hyear]
    exact List.append_left_lt (List.cons_lt_cons_iff.mpr (.inr ⟨rfl, hless⟩))

end HasLabel

theorem isLabel_text {m : Month} (h : m.IsCalendar) (hyear : 0 ≤ m.year)
    (hfour : m.year ≤ 9999) : m.IsLabel m.text :=
  HasLabel.isLabel ⟨h, hyear, hfour⟩

/-! ## Months in a row -/

variable {a b m first last : Month}

theorem before_iff_index_lt (ha : a.IsCalendar) (hb : b.IsCalendar) :
    a.before b = true ↔ a.index < b.index := by
  simp only [IsCalendar, before_iff, index] at *
  omega

theorem before_asymm (h : a.before b = true) : b.before a = false := by
  simp only [← Bool.not_eq_true, before_iff] at *
  omega

theorem eq_of_not_before (hab : a.before b = false) (hba : b.before a = false) :
    a = b := by
  by_contra hne
  have := before_of_not_before hne (by simp [hab])
  simp [hba] at this

theorem before_eq_false_iff (ha : a.IsCalendar) (hb : b.IsCalendar) :
    a.before b = false ↔ b.index ≤ a.index := by
  simp [← Bool.not_eq_true, before_iff_index_lt ha hb]

theorem isCalendar_next (h : m.IsCalendar) : m.next.IsCalendar := by
  unfold next
  split <;> simp only [IsCalendar] at * <;> omega

theorem index_next (m : Month) : m.next.index = m.index + 1 := by
  unfold next
  split <;> simp only [index] <;> omega

theorem index_ofIndex (i : Int) : (ofIndex i).index = i := by
  simp only [ofIndex, index]
  omega

theorem before_iff_next (hm : m.IsCalendar) (hb : b.IsCalendar) :
    m.before b = true ↔ b.before m.next = false := by
  rw [before_iff_index_lt hm hb, before_eq_false_iff hb (isCalendar_next hm),
    index_next]
  omega

structure IsBetween (first last m : Month) : Prop where
  isCalendar : m.IsCalendar
  not_before : m.before first = false
  not_after : last.before m = false

section Run

variable (hfirst : first.IsCalendar) (hlast : last.IsCalendar)
include hfirst hlast

theorem mem_run_iff : m ∈ run first last ↔ IsBetween first last m := by
  constructor
  · intro h
    have hm := isCalendar_of_mem_run h
    simp only [run, List.mem_map, List.mem_range] at h
    obtain ⟨i, hi, rfl⟩ := h
    refine ⟨hm, ?_, ?_⟩
    · rw [before_eq_false_iff hm hfirst, index_ofIndex]
      omega
    · rw [before_eq_false_iff hlast hm, index_ofIndex]
      omega
  · rintro ⟨hm, hlow, hhigh⟩
    rw [before_eq_false_iff hm hfirst] at hlow
    rw [before_eq_false_iff hlast hm] at hhigh
    simp only [run, List.mem_map, List.mem_range]
    refine ⟨(m.index - first.index).toNat, by omega, ?_⟩
    have hindex : first.index + ((m.index - first.index).toNat : Int) =
        m.index := by omega
    rw [hindex, ofIndex_index hm]

end Run

theorem pairwise_run (first last : Month) :
    (run first last).Pairwise fun a b => a.before b = true := by
  rw [run, List.pairwise_map]
  refine List.pairwise_lt_range.imp fun {i j} hlt => ?_
  rw [before_iff_index_lt (isCalendar_ofIndex _) (isCalendar_ofIndex _),
    index_ofIndex, index_ofIndex]
  omega

theorem length_run (first last : Month) :
    (run first last).length = (last.index - first.index + 1).toNat := by
  simp [run]

end Chartbook.Month
