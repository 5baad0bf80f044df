import Chartbook.Dataset.Basic

/-!
# Profiles

What a classifier is shown of a dataset: the types of the columns, a few
statistics of each and the time that the dataset covers.
-/

namespace Chartbook

def topValueCount : Nat := 3

inductive ColumnStats where
  | dates (first last : Option String) (count : Nat)
  | numbers (count : Nat) (sum mean : Float)
  | texts (values : List String) (counts : List Nat)
  deriving DecidableEq

structure TimeCoverage where
  column : String
  first : Option String
  last : Option String
  deriving DecidableEq

structure Profile where
  columns : List ColumnClass
  stats : Keyed ColumnStats
  coverage : Option TimeCoverage

def earliest? : List Timestamp → Option Timestamp
  | [] => none
  | t :: ts => some (ts.foldl (fun a b => if b.rank < a.rank then b else a) t)

def latest? : List Timestamp → Option Timestamp
  | [] => none
  | t :: ts => some (ts.foldl (fun a b => if a.rank ≤ b.rank then b else a) t)

/-- The sum from left to right; the sum of no numbers is -0. -/
def floatSum (xs : List Float) : Float := xs.foldl (· + ·) (-0.0)

def bump (counts : List (String × Nat)) (s : String) : List (String × Nat) :=
  putPair s ((counts.lookup s).getD 0 + 1) counts

def tally (ss : List String) : List (String × Nat) := ss.foldl bump []

def mostFrequent (n : Nat) (ss : List String) : List (String × Nat) :=
  ((tally ss).mergeSort fun a b => b.2 ≤ a.2).take n

def Values.bounds : Values → Option String × Option String
  | .dates v =>
      let present := v.filterMap id
      ((earliest? present).map Timestamp.label,
        (latest? present).map Timestamp.label)
  | _ => (none, none)

def ColumnStats.ofValues (v : Values) : ColumnStats :=
  match v with
  | .dates ts => .dates v.bounds.1 v.bounds.2 (ts.filterMap id).length
  | .numbers xs =>
      let present := xs.filterMap id
      let sum := floatSum present
      .numbers present.length sum
        (if present.isEmpty then 0.0 else sum / Float.ofNat present.length)
  | .texts cells =>
      let top := mostFrequent topValueCount (cells.filterMap Cell.text?)
      .texts (top.map Prod.fst) (top.map Prod.snd)

namespace Dataset

/-- The profile; of columns with one name the last counts in the statistics. -/
def profile (d : Dataset) : Profile where
  columns := d.columns.map fun c =>
    { name := c.name, dtype := c.values.inferred }
  stats := .ofList
    (d.columns.map fun c => (c.name, ColumnStats.ofValues c.values))
  coverage := (d.columns.find? (·.values.areDates)).map fun c =>
    ⟨c.name, c.values.bounds.1, c.values.bounds.2⟩

end Dataset

def ColumnStats.toJson : ColumnStats → Json
  | .dates first last count => .object [
      ("min", .optionalText first),
      ("max", .optionalText last),
      ("count", .natural count)]
  | .numbers count sum mean => .object [
      ("count", .natural count), ("sum", .real sum), ("mean", .real mean)]
  | .texts values counts => .object [
      ("top_values", .texts values),
      ("top_counts", .array (counts.map .natural))]

def TimeCoverage.toJson (t : TimeCoverage) : Json := .object [
  ("date_col", .text t.column),
  ("min", .optionalText t.first),
  ("max", .optionalText t.last)]

def Profile.toJson (p : Profile) : Json := .object [
  ("columns", .array (p.columns.map ColumnClass.toJson)),
  ("stats", .object (p.stats.sorted.map fun (name, s) => (name, s.toJson))),
  ("time_coverage", (p.coverage.map TimeCoverage.toJson).getD .null)]

end Chartbook
