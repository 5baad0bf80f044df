import Chartbook.Proofs.Calendar.Literal
import Chartbook.Proofs.Number.ReadBack

/-!
# Fields that become typed cells

A field is stored as null if it is blank or a word for a missing value, and as a
number if it is the literal of a finite one.  The former is read neither as a
number nor as a date.  The latter is read as the same number in every spelling,
and neither it nor the text of that number is a date.  So what a field is read
as later does not depend on how it is stored.
-/

namespace Chartbook

namespace Cell

variable {field : String}

def IsMissing (s : List Char) : Prop :=
  s = [] ∨ String.ofList s ∈ missingWords

theorem ofField_cases (field : String) :
    (ofField field = null ∧ IsMissing (Text.trim field.toList)) ∨
      (∃ x, ofField field = number x ∧
        Number.ofPlain? (Text.trim field.toList) = some x) ∨
      ofField field = text field := by
  rw [ofField]
  split
  · rename_i hmissing
    exact .inl ⟨rfl, hmissing⟩
  · right
    split
    · rename_i x hx
      split
      · exact .inl ⟨x, rfl, hx⟩
      · exact .inr rfl
    · exact .inr rfl

theorem IsMissing.unread {s : List Char} (h : IsMissing s) :
    Number.ofLocale? s = none ∧ Timestamp.ofText? s = none := by
  rcases h with rfl | hword
  · exact ⟨rfl, rfl⟩
  · have hwords : ∀ word ∈ missingWords,
        Number.ofLocale? word.toList = none ∧
          Timestamp.ofText? word.toList = none := by
      decide
    have hread := hwords _ hword
    rwa [String.toList_ofList] at hread

private theorem number?_ofField (field : String) :
    (ofField field).number? = Number.ofLocale? field.toList := by
  rcases ofField_cases field with ⟨heq, hmissing⟩ | ⟨x, heq, hx⟩ | heq
  · obtain ⟨hnumber, -⟩ := hmissing.unread
    rw [heq, ← Number.ofLocale?_trim, hnumber]
    rfl
  · have hnumber := Number.isNaN_of_ofPlain? hx
    rw [heq, number?, hnumber, if_neg Bool.false_ne_true,
      Number.ofLocale?_of_ofPlain? hx]
  · rw [heq]
    rfl

def readDate? (c : Cell) : Option Timestamp :=
  c.text?.bind fun s => Timestamp.ofText? s.toList

private theorem readDate?_number (x : Float) (hx : x.isNaN = false) :
    (number x).readDate? = none := by
  have hliteral := Number.isLiteral_of_ofPlain? (Number.ofPlain?_plain hx)
  rw [readDate?, text?, Option.bind_some, Number.text, String.toList_ofList]
  exact Timestamp.ofText?_of_isLiteral hliteral

private theorem readDate?_ofField (field : String) :
    (ofField field).readDate? = Timestamp.ofText? field.toList := by
  rcases ofField_cases field with ⟨heq, hmissing⟩ | ⟨x, heq, hx⟩ | heq
  · obtain ⟨-, hdate⟩ := hmissing.unread
    rw [heq, ← Timestamp.ofText?_trim, hdate]
    rfl
  · have hliteral := Number.isLiteral_of_ofPlain? hx
    rw [heq, readDate?_number x (Number.isNaN_of_ofPlain? hx),
      ← Timestamp.ofText?_trim, Timestamp.ofText?_of_isLiteral hliteral]
  · rw [heq]
    rfl

/-- A field is read as the same number and as the same date before and after it
is stored, and every plain number is that number in the spellings of a
locale. -/
theorem ofField_lossless (field : String) :
    (ofField field).number? = Number.ofLocale? field.toList ∧
      (ofField field).readDate? = Timestamp.ofText? field.toList ∧
      ∀ x, (text field).plainNumber? = some x →
        (text field).number? = some x :=
  ⟨number?_ofField field, readDate?_ofField field,
    fun _ => Number.ofLocale?_of_ofPlain?⟩

theorem ofField_lossless_power :
    ∃ x, (text " 2.5e3 ").plainNumber? = some x ∧
      (text " 2.5e3 ").number? = some x ∧
      (ofField " 2.5e3 ").number? = some x := by
  obtain ⟨x, hx⟩ : ∃ x, (text " 2.5e3 ").plainNumber? = some x :=
    Option.isSome_iff_exists.mp (by decide)
  obtain ⟨hnumber, -, hplain⟩ := ofField_lossless " 2.5e3 "
  have hread := hplain x hx
  exact ⟨x, hx, hread, hnumber.trans hread⟩

end Cell

end Chartbook
