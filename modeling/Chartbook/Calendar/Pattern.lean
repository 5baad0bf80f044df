import Chartbook.Calendar.Timestamp
import Chartbook.Text.Blank
import Chartbook.Text.LetterCase

/-!
# Date patterns

A pattern is a list of items that are read one after the other.  Numbers may
have fewer digits than their field is wide and may follow white space; the whole
text has to be used.
-/

namespace Chartbook

namespace Pattern

inductive Component where
  | year
  | shortYear
  | month
  | day
  | hour
  | minute
  | second
  deriving DecidableEq, Repr

inductive Item where
  | number (component : Component)
  | literal (c : Char)
  | gap
  | shortMonth
  | longMonth
  | fraction
  deriving DecidableEq, Repr

structure Parts where
  year : Option Int := none
  month : Option Nat := none
  day : Option Nat := none
  hour : Nat := 0
  minute : Nat := 0
  second : Nat := 0
  nanosecond : Nat := 0

def number? (width : Nat) (s : List Char) : Option (Nat × List Char) :=
  let ds := (s.take width).takeWhile Number.isDigit
  if ds = [] then none else some (Number.digitsValue ds, s.drop ds.length)

/-- Reads a year: up to four digits, or a sign and any number of digits. -/
def year? : List Char → Option (Int × List Char)
  | '-' :: s => (number? s.length s).map fun (n, rest) => (-(n : Int), rest)
  | '+' :: s => (number? s.length s).map fun (n, rest) => ((n : Int), rest)
  | s => (number? 4 s).map fun (n, rest) => ((n : Int), rest)

def centuryOf (short : Nat) : Int := if short < 70 then 2000 else 1900

def readComponent (p : Parts) (s : List Char) :
    Component → Option (Parts × List Char)
  | .year => (year? s).map fun (n, rest) => ({ p with year := some n }, rest)
  | .shortYear => (number? 2 s).map fun (n, rest) =>
      ({ p with year := some (centuryOf n + n) }, rest)
  | .month => (number? 2 s).map fun (n, rest) =>
      ({ p with month := some n }, rest)
  | .day => (number? 2 s).map fun (n, rest) => ({ p with day := some n }, rest)
  | .hour => (number? 2 s).map fun (n, rest) => ({ p with hour := n }, rest)
  | .minute => (number? 2 s).map fun (n, rest) => ({ p with minute := n }, rest)
  | .second => (number? 2 s).map fun (n, rest) => ({ p with second := n }, rest)

def monthNames : List (String × String) :=
  [("jan", "uary"), ("feb", "ruary"), ("mar", "ch"), ("apr", "il"),
   ("may", ""), ("jun", "e"), ("jul", "y"), ("aug", "ust"),
   ("sep", "tember"), ("oct", "ober"), ("nov", "ember"), ("dec", "ember")]

def monthNamed? (s : List Char) : Option (Nat × List Char) :=
  (monthNames.findIdx? fun name =>
    name.1.toList == Text.asciiLower (s.take 3)).map fun i =>
    (i + 1, ((monthNames.map Prod.snd)[i]?.getD "").toList)

/-- The nanoseconds that the digits after the point stand for; digits past the
ninth are dropped. -/
def nanoseconds (ds : List Char) : Nat :=
  let ds := ds.take 9
  Number.digitsValue ds * Nat.pow 10 (9 - ds.length)

def fraction? (s : List Char) : Option (Nat × List Char) :=
  let (ds, rest) := Number.spanDigits s
  if ds = [] then none else some (nanoseconds ds, rest)

def readItem (p : Parts) (s : List Char) : Item → Option (Parts × List Char)
  | .number component => readComponent p (Text.trimStart s) component
  | .literal c =>
      match s with
      | [] => none
      | x :: rest => if x = c then some (p, rest) else none
  | .gap => some (p, Text.trimStart s)
  | .shortMonth => (monthNamed? s).map fun (n, _) =>
      ({ p with month := some n }, s.drop 3)
  | .longMonth => (monthNamed? s).map fun (n, ending) =>
      let rest := s.drop 3
      let rest :=
        if Text.asciiLower (rest.take ending.length) = ending then
          rest.drop ending.length
        else rest
      ({ p with month := some n }, rest)
  | .fraction =>
      match s with
      | '.' :: rest => (fraction? rest).map fun (n, rest) =>
          ({ p with nanosecond := n }, rest)
      | _ => some (p, s)

def readItems (p : Parts) (s : List Char) :
    List Item → Option (Parts × List Char)
  | [] => some (p, s)
  | item :: items => (readItem p s item).bind fun (p, s) => readItems p s items

def Parts.date? (p : Parts) : Option Date := do
  Date.ofParts? (← p.year) (← p.month) (← p.day)

def Parts.timestamp? (p : Parts) : Option Timestamp := do
  some ⟨← p.date?, ← TimeOfDay.ofParts? p.hour p.minute p.second p.nanosecond⟩

end Pattern

abbrev Pattern := List Pattern.Item

namespace Pattern

open Item Component

def parts? (pattern : Pattern) (s : List Char) : Option Parts :=
  match readItems {} s pattern with
  | some (p, []) => some p
  | _ => none

def timestamp? (pattern : Pattern) (s : List Char) : Option Timestamp :=
  (pattern.parts? s).bind Parts.timestamp?

def day? (pattern : Pattern) (s : List Char) : Option Timestamp :=
  ((pattern.parts? s).bind Parts.date?).map Timestamp.ofDate

def dayFirst (separator : Char) : Pattern :=
  [number day, literal separator, number month, literal separator, number year]

def monthFirst (separator : Char) : Pattern :=
  [number month, literal separator, number day, literal separator, number year]

def yearFirst (separator : Char) : Pattern :=
  [number year, literal separator, number month, literal separator, number day]

def dayFirstShort (separator : Char) : Pattern :=
  [number day, literal separator, number month, literal separator,
    number shortYear]

def monthFirstShort (separator : Char) : Pattern :=
  [number month, literal separator, number day, literal separator,
    number shortYear]

def hourMinute : Pattern := [number hour, literal ':', number minute]

def hourMinuteSecond : Pattern := hourMinute ++ [literal ':', number second]

end Pattern

end Chartbook
