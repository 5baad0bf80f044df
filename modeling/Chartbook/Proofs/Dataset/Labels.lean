import Chartbook.Proofs.Dataset.Normalization
import Chartbook.Proofs.Number.Finite
import Chartbook.Proofs.Table.Field

/-!
# Numbers and their labels

A cell counts as the number that its text is read as, in the spellings of a
locale and as a plain literal.  The text of a finite number is stored as that
number, bit for bit, and no two numbers have one text, so rows with different
numbers have different labels.
-/

namespace Chartbook

/-! ## Cells -/

namespace Cell

variable {x : Float}

theorem plainNumber?_eq_bind_text? (c : Cell) :
    c.plainNumber? = c.text?.bind fun s => (text s).plainNumber? := by
  cases c with
  | null => rfl
  | bool b => cases b <;> decide
  | number x =>
      rw [text?, Option.bind_some, plainNumber?, plainNumber?, Number.text,
        String.toList_ofList, Number.trim_plain, Number.ofPlain?_plain_eq]
  | text s => rfl

private theorem not_isMissing_plain (hx : x.isNaN = false) :
    ¬IsMissing (Number.plain x) := by
  intro hmissing
  obtain ⟨hnone, -⟩ := hmissing.unread
  rw [Number.ofLocale?_plain, hx] at hnone
  contradiction

private theorem ofField_text (hx : x.isFinite = true) :
    ofField (Number.text x) = number x := by
  have hnumber := Number.isNaN_of_isFinite hx
  have htrim : Text.trim (Number.text x).toList = Number.plain x := by
    rw [Number.text, String.toList_ofList, Number.trim_plain]
  have hmissing := not_isMissing_plain hnumber
  rw [IsMissing] at hmissing
  rw [ofField, htrim, if_neg hmissing, Number.ofPlain?_plain hnumber]
  exact if_pos hx

end Cell

/-! ## Labels -/

namespace Values

/-- A row with a number, in a column of numbers or as a cell left as it is. -/
inductive Holds (row : Nat) (x : Float) : Values → Prop where
  | number {v : List (Option Float)} (h : v[row]? = some (some x)) :
      Holds row x (.numbers v)
  | cell {cells : List Cell} (h : cells[row]? = some (.number x)) :
      Holds row x (.texts cells)

variable {values values' : Values} {row row' : Nat} {x y : Float}

theorem Holds.label (h : values.Holds row x) :
    values.labels[row]? = some (some (Number.text x)) := by
  cases h with
  | number h => simp [labels, h]
  | cell h => simp [labels, h, Cell.text?]

theorem Holds.eq_of_label_eq (h : values.Holds row x)
    (h' : values'.Holds row' y) (hx : x.isNaN = false) (hy : y.isNaN = false)
    (heq : values.labels[row]? = values'.labels[row']?) : x = y := by
  rw [h.label, h'.label] at heq
  exact Number.eq_of_text_eq hx hy (Option.some.inj (Option.some.inj heq))

end Values

/--
A cell counts as the number that its text is read as, the text of a finite
number is stored as the same bits, and rows with numbers that differ in a bit
have different labels.
-/
theorem text_determines_number :
    (∀ c : Cell,
      c.number? = (c.text?.bind fun s => Number.ofLocale? s.toList) ∧
      c.plainNumber? = c.text?.bind fun s => (Cell.text s).plainNumber?) ∧
    (∀ x : Float, x.isFinite = true →
      (Cell.number x).text?.map Cell.ofField = some (.number x)) ∧
    ∀ (values values' : Values) (row row' : Nat) (x y : Float),
      values.Holds row x → values'.Holds row' y → x.isNaN = false →
        y.isNaN = false → x.toBits ≠ y.toBits →
          values.labels[row]? ≠ values'.labels[row']? := by
  refine ⟨fun c => ?_, fun x hx => ?_, ?_⟩
  · exact ⟨c.number?_eq_bind_text?, c.plainNumber?_eq_bind_text?⟩
  · exact congrArg some (Cell.ofField_text hx)
  · intro values values' row row' x y h h' hx hy hbits heq
    exact hbits (congrArg Float.toBits (h.eq_of_label_eq h' hx hy heq))

theorem text_determines_number_zeros :
    let values : Values := .numbers [some 0.0, none, some (-0.0)]
    values.labels[0]? ≠ values.labels[2]? ∧
      Cell.ofField (Number.text (-0.0)) = .number (-0.0) := by
  intro values
  obtain ⟨-, hfield, hlabels⟩ := text_determines_number
  refine ⟨hlabels values values 0 2 0.0 (-0.0) (.number rfl) (.number rfl)
    (by decide +kernel) (by decide +kernel) (by decide +kernel), ?_⟩
  exact Option.some.inj (hfield (-0.0) (by decide +kernel))

end Chartbook
