import Chartbook.Calendar.Pattern

/-!
# Instants

Timestamps with an offset from universal time, in the internet profile: every
field has its full width, the fraction is optional and the offset is not.  An
instant is kept as universal time.
-/

namespace Chartbook

namespace Instant

def digits? (n : Nat) (s : List Char) : Option (Nat × List Char) :=
  let ds := s.take n
  if ds.length = n ∧ ds.all Number.isDigit then
    some (Number.digitsValue ds, s.drop n)
  else none

def char? (accepted : List Char) : List Char → Option (List Char)
  | [] => none
  | c :: rest => if c ∈ accepted then some rest else none

def offset? : List Char → Option (Int × List Char)
  | [] => none
  | c :: rest =>
      if c = 'Z' ∨ c = 'z' then some (0, rest)
      else do
        guard (c = '+' ∨ c = '-' ∨ c = '−')
        let (hours, rest) ← digits? 2 rest
        let rest ← char? [':'] rest
        let (minutes, rest) ← digits? 2 rest
        guard (hours < 24 ∧ minutes < 60)
        let size : Int := 60 * hours + minutes
        some (if c = '+' then size else -size, rest)

/-- Moves a timestamp back by an offset of less than a day; outside the range of
dates there is no result. -/
def toUniversal? (t : Timestamp) (offset : Int) : Option Timestamp := do
  let minutes : Int := 60 * t.time.hour + t.time.minute - offset
  let date ←
    if minutes < 0 then t.date.previous?
    else if 1440 ≤ minutes then t.date.next?
    else some t.date
  let ofDay := (minutes % 1440).toNat
  some ⟨date, ← TimeOfDay.ofParts? (ofDay / 60) (ofDay % 60) t.time.second
    t.time.nanosecond⟩

def fraction? : List Char → Option (Nat × List Char)
  | '.' :: rest => Pattern.fraction? rest
  | s => some (0, s)

def timestamp? (s : List Char) : Option Timestamp := do
  let (year, s) ← digits? 4 s
  let s ← char? ['-'] s
  let (month, s) ← digits? 2 s
  let s ← char? ['-'] s
  let (day, s) ← digits? 2 s
  let s ← char? ['T', 't', ' '] s
  let (hour, s) ← digits? 2 s
  let s ← char? [':'] s
  let (minute, s) ← digits? 2 s
  let s ← char? [':'] s
  let (second, s) ← digits? 2 s
  let (nanosecond, s) ← fraction? s
  let (offset, s) ← offset? s
  guard s.isEmpty
  let date ← Date.ofParts? year month day
  let time ← TimeOfDay.ofParts? hour minute second nanosecond
  toUniversal? ⟨date, time⟩ offset

end Instant

end Chartbook
