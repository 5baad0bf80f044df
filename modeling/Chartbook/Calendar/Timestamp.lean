import Chartbook.Calendar.Date

/-!
# Timestamps

A day with a time of day.  Second 60 is a leap second; it comes after second 59
of its minute.
-/

namespace Chartbook

structure TimeOfDay where
  hour : Nat
  minute : Nat
  second : Nat
  nanosecond : Nat
  valid : hour < 24 ∧ minute < 60 ∧ second ≤ 60 ∧ nanosecond < 1000000000
  deriving DecidableEq

namespace TimeOfDay

def midnight : TimeOfDay := ⟨0, 0, 0, 0, by decide⟩

def ofParts? (hour minute second nanosecond : Nat) : Option TimeOfDay :=
  if h : hour < 24 ∧ minute < 60 ∧ second ≤ 60 ∧ nanosecond < 1000000000 then
    some ⟨hour, minute, second, nanosecond, h⟩
  else none

def text (t : TimeOfDay) : List Char :=
  Number.padded 2 t.hour ++ ':' :: Number.padded 2 t.minute ++
    ':' :: Number.padded 2 t.second

end TimeOfDay

structure Timestamp where
  date : Date
  time : TimeOfDay
  deriving DecidableEq

namespace Timestamp

def ofDate (d : Date) : Timestamp := ⟨d, .midnight⟩

def rank (t : Timestamp) : Int :=
  ((((((t.date.year * 12 + t.date.month) * 32 + t.date.day) * 24 +
    t.time.hour) * 60 + t.time.minute) * 61 +
    t.time.second) * 1000000000 + t.time.nanosecond)

def label (t : Timestamp) : String :=
  if t.time = .midnight then String.ofList t.date.text
  else String.ofList (t.date.text ++ ' ' :: t.time.text)

end Timestamp

end Chartbook
