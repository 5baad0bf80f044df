import Chartbook.Dataset.Basic

/-!
# The date axis

The column of dates that stands for the time of a dataset.  A column by a
well-known name comes first, then the leftmost; columns named for a month or a
year alone are never the axis.
-/

namespace Chartbook.Dataset

def axisNames : List String :=
  ["data", "date", "dt", "dia", "competencia", "month"]

def calendarParts : List String := ["mes", "ano"]

def dateAxis? (d : Dataset) : Option String :=
  (axisNames.find? d.isDateColumn).or <|
    (d.columns.find? fun c =>
      c.values.areDates && !calendarParts.contains c.name).map (·.name)

end Chartbook.Dataset
