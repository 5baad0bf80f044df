import Chartbook.Calendar.Timestamp

/-!
# Months

Calendar months, their order and the run from one month to another.
-/

namespace Chartbook

structure Month where
  year : Int
  number : Nat
  deriving DecidableEq, Repr

namespace Month

def ofTimestamp (t : Timestamp) : Month := ⟨t.date.year, t.date.month⟩

def next (m : Month) : Month :=
  if m.number = 12 then ⟨m.year + 1, 1⟩ else ⟨m.year, m.number + 1⟩

def index (m : Month) : Int := 12 * m.year + m.number

def ofIndex (i : Int) : Month := ⟨(i - 1) / 12, ((i - 1) % 12).toNat + 1⟩

def IsCalendar (m : Month) : Prop := 1 ≤ m.number ∧ m.number ≤ 12

theorem ofIndex_index {m : Month} (h : m.IsCalendar) : ofIndex m.index = m := by
  obtain ⟨y, n⟩ := m
  obtain ⟨h1, h2⟩ := h
  simp only at h1 h2
  simp only [ofIndex, index, mk.injEq]
  omega

def before (a b : Month) : Bool :=
  a.year < b.year || (a.year == b.year && a.number < b.number)

def run (first last : Month) : List Month :=
  (List.range (last.index - first.index + 1).toNat).map fun (i : Nat) =>
    ofIndex (first.index + i)

/-- Year and month number; a minus sign counts among the four characters of the
year. -/
def text (m : Month) : String :=
  String.ofList (
    (if m.year < 0 then '-' :: Number.padded 3 m.year.natAbs
      else Number.padded 4 m.year.natAbs) ++
    '-' :: Number.padded 2 m.number)

end Month

end Chartbook
