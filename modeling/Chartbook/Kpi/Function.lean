import Chartbook.Dataset.DateAxis
import Chartbook.Dataset.Monthly
import Chartbook.Dataset.Profile

/-!
# KPI functions

The closed table of functions that an expression may call.  They see the columns
they are given, and the growth from month to month also the dates of the date
axis.
-/

namespace Chartbook

inductive KpiFunction where
  | sum
  | average
  | minimum
  | maximum
  | count
  | growth
  | attainment
  deriving DecidableEq, Repr

namespace KpiFunction

def all : List KpiFunction :=
  [sum, average, minimum, maximum, count, growth, attainment]

def name : KpiFunction → String
  | sum => "sum"
  | average => "avg"
  | minimum => "min"
  | maximum => "max"
  | count => "count"
  | growth => "growth_mom"
  | attainment => "attainment"

def arity : KpiFunction → Nat
  | attainment => 2
  | _ => 1

def ofName? (name : String) : Option KpiFunction := all.find? (·.name = name)

def present (c : Dataset.Column) : List Float := c.values.numeric.filterMap id

def mean (xs : List Float) : Float :=
  if xs.isEmpty then 0.0 else xs.foldl (· + ·) 0.0 / Float.ofNat xs.length

def lesser (a b : Float) : Float := if b < a then b else a

def greater (a b : Float) : Float := if a < b then b else a

def extreme (choose : Float → Float → Float) : List Float → Float
  | [] => 0.0
  | x :: xs => xs.foldl choose x

def change (sums : List Float) : Float :=
  match sums.reverse with
  | last :: previous :: _ =>
      if previous != 0.0 then (last - previous) / previous.abs else 0.0
  | _ => 0.0

/-- The growth of a column over the months in which its sum is not zero; zero
without a date axis. -/
def growthOf (d : Dataset) (c : Dataset.Column) : Float :=
  match d.dateAxis?.bind d.dates? with
  | some dates =>
      change ((MonthSums.ofColumns dates [c.values.numeric] .occurring true).map
        fun row => row.2.headD 0.0)
  | none => 0.0

def ratio (actual target : Float) : Float :=
  if target == 0.0 then 0.0 else actual / target

def value? (f : KpiFunction) (d : Dataset) (args : List Dataset.Column) :
    Option Float :=
  match f, args with
  | sum, [c] => some (floatSum (present c))
  | average, [c] => some (mean (present c))
  | minimum, [c] => some (extreme lesser (present c))
  | maximum, [c] => some (extreme greater (present c))
  | count, [c] => some (Float.ofNat (present c).length)
  | growth, [c] => some (growthOf d c)
  | attainment, [a, b] =>
      some (ratio (floatSum (present a)) (floatSum (present b)))
  | _, _ => none

end KpiFunction

end Chartbook
