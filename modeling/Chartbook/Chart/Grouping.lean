import Chartbook.Dataset.Basic

/-!
# Grouping

Numbers summed by the label of a category.  Groups come in category order:
numbers by value, everything else by label.
-/

namespace Chartbook

structure Group where
  label : String
  number : Option Float
  sum : Float
  deriving DecidableEq

namespace Group

def add (label : String) (number : Option Float) (value : Float) :
    List Group → List Group
  | [] => [⟨label, number, 0.0 + value⟩]
  | g :: rest =>
      if g.label = label then { g with sum := g.sum + value } :: rest
      else g :: add label number value rest

def precedes (a b : Group) : Bool :=
  match a.number, b.number with
  | some x, some y => Number.rank x ≤ Number.rank y
  | _, _ => a.label ≤ b.label

end Group

namespace Dataset

def categoryNumbers : Values → List (Option Float)
  | .numbers v => v
  | v => List.replicate v.length none

def addLabelled (groups : List Group) :
    List (Option String × Option Float × Option Float) → List Group
  | [] => groups
  | (none, _, _) :: rows => addLabelled groups rows
  | (some label, number, value) :: rows =>
      addLabelled (Group.add label number (value.getD 0.0) groups) rows

/-- The sums of `values` by the labels of `category`, in category order. -/
def groups (category values : Values) : List Group :=
  (addLabelled [] (category.labels.zip
    ((categoryNumbers category).zip values.numeric))).mergeSort Group.precedes

end Dataset

end Chartbook
