import Chartbook.Number.Digits

/-!
# Dates

Days of the proleptic Gregorian calendar, with a year zero before year one.  A
`Date` exists only if its day does, so no function on dates has to check that
again.
-/

namespace Chartbook

def isLeapYear (year : Int) : Bool :=
  year % 4 == 0 && (year % 100 != 0 || year % 400 == 0)

def daysInMonth (year : Int) (month : Nat) : Nat :=
  if month = 2 then if isLeapYear year then 29 else 28
  else if month ∈ [4, 6, 9, 11] then 30
  else 31

def Date.Valid (year : Int) (month day : Nat) : Prop :=
  -262143 ≤ year ∧ year ≤ 262142 ∧ 1 ≤ month ∧ month ≤ 12 ∧
    1 ≤ day ∧ day ≤ daysInMonth year month

instance (year : Int) (month day : Nat) :
    Decidable (Date.Valid year month day) :=
  inferInstanceAs (Decidable (_ ∧ _))

structure Date where
  year : Int
  month : Nat
  day : Nat
  valid : Date.Valid year month day
  deriving DecidableEq

namespace Date

def ofParts? (year : Int) (month day : Nat) : Option Date :=
  if h : Valid year month day then some ⟨year, month, day, h⟩ else none

def next? (d : Date) : Option Date :=
  if d.day < daysInMonth d.year d.month then ofParts? d.year d.month (d.day + 1)
  else if d.month < 12 then ofParts? d.year (d.month + 1) 1
  else ofParts? (d.year + 1) 1 1

def previous? (d : Date) : Option Date :=
  if 1 < d.day then ofParts? d.year d.month (d.day - 1)
  else if 1 < d.month then
    ofParts? d.year (d.month - 1) (daysInMonth d.year (d.month - 1))
  else ofParts? (d.year - 1) 12 31

/-- Years 0 to 9999 have four digits; any other year has a sign and at least
four. -/
def yearText (year : Int) : List Char :=
  (if year < 0 then ['-'] else if 9999 < year then ['+'] else []) ++
    Number.padded 4 year.natAbs

def text (d : Date) : List Char :=
  yearText d.year ++ '-' :: Number.padded 2 d.month ++
    '-' :: Number.padded 2 d.day

end Date

end Chartbook
