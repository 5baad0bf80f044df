import Chartbook.Calendar.Instant
import Chartbook.Cell

/-!
# Reading dates

A column of dates is read with one layout, which its first value decides: one of
two fixed layouts, or the tolerant reading that tries instants, dates with a
time, dates and months in a fixed order.
-/

namespace Chartbook

namespace Timestamp

open Pattern

def momentPatterns : List Pattern :=
  [dayFirst '/' ++ .gap :: hourMinuteSecond,
   dayFirst '/' ++ .gap :: hourMinute,
   yearFirst '-' ++ .gap :: hourMinuteSecond,
   yearFirst '-' ++ .gap :: hourMinuteSecond ++ [.fraction],
   yearFirst '-' ++ .literal 'T' :: hourMinuteSecond,
   yearFirst '-' ++ .literal 'T' :: hourMinuteSecond ++ [.fraction],
   yearFirst '-' ++ .gap :: hourMinute,
   monthFirst '/' ++ .gap :: hourMinuteSecond]

/-- Dates with a long year, in the order in which they are tried: the day comes
before the month. -/
def datePatterns : List Pattern :=
  [dayFirst '/', dayFirst '-', dayFirst '.',
   yearFirst '-', yearFirst '/', monthFirst '/',
   [.number .day, .gap, .shortMonth, .gap, .number .year],
   [.number .day, .gap, .longMonth, .gap, .number .year],
   [.shortMonth, .gap, .number .day, .gap, .number .year],
   [.longMonth, .gap, .number .day, .literal ',', .gap, .number .year]]

def shortDatePatterns : List Pattern :=
  [dayFirstShort '/', dayFirstShort '-', dayFirstShort '.', monthFirstShort '/']

/-- Three rows of digits between date separators, the last of two digits. -/
def hasShortYear (s : List Char) : Bool :=
  match s.splitOnP fun c => c == '/' || c == '-' || c == '.' with
  | [a, b, c] => c.length == 2 &&
      [a, b, c].all fun p => !p.isEmpty && p.all Number.isDigit
  | _ => false

def ofDateText? (s : List Char) : Option Timestamp :=
  (if hasShortYear s then shortDatePatterns else datePatterns).findSome?
    fun p => p.day? s

def ofMonthText? (s : List Char) : Option Timestamp :=
  ((yearFirst '-').day? (s ++ ['-', '0', '1'])).or
    ((dayFirst '/').day? (['0', '1', '/'] ++ s))

def ofText? (s : List Char) : Option Timestamp :=
  let s := Text.trim s
  if s = [] then none
  else
    (Instant.timestamp? s).or <|
    (momentPatterns.findSome? fun p => p.timestamp? s).or <|
    (ofDateText? s).or (ofMonthText? s)

end Timestamp

inductive Layout where
  | iso
  | dayMonthYear
  | mixed
  deriving DecidableEq, Repr

namespace Layout

def detect (s : List Char) : Layout :=
  match s with
  | [a, b, c, d, e, f, g, h, i, j] =>
      if e = '-' ∧ h = '-' ∧
          [a, b, c, d, f, g, i, j].all Number.isDigit then iso
      else if c = '/' ∧ f = '/' ∧
          [a, b, d, e, g, h, i, j].all Number.isDigit then dayMonthYear
      else mixed
  | _ => mixed

def read (layout : Layout) (s : List Char) : Option Timestamp :=
  match layout with
  | iso => (Pattern.yearFirst '-').day? s
  | dayMonthYear => (Pattern.dayFirst '/').day? s
  | mixed => Timestamp.ofText? s

end Layout

namespace Cell

def dateText? (c : Cell) : Option (List Char) :=
  (c.text?.map fun s => Text.trim s.toList).filter (· ≠ [])

end Cell

structure UnreadableDates where
  values : Nat
  deriving DecidableEq, Repr

namespace UnreadableDates

def message (e : UnreadableDates) : String :=
  s!"none of the {e.values} non-empty values could be read as a date"

end UnreadableDates

def Layout.ofTexts (texts : List (Option (List Char))) : Layout :=
  match texts.findSome? id with
  | some first => detect first
  | none => mixed

/-- Reads a column of dates; single values that cannot be read are missing. -/
def readDates (cells : List Cell) :
    Except UnreadableDates (List (Option Timestamp)) :=
  let texts := cells.map Cell.dateText?
  let layout := Layout.ofTexts texts
  let dates := texts.map fun t => t.bind layout.read
  let values := (texts.filterMap id).length
  if 0 < values ∧ dates.all Option.isNone then .error ⟨values⟩ else .ok dates

end Chartbook
