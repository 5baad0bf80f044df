import Chartbook.Json.Basic

/-!
# Rows

The rows of a chart or series: texts and numbers by key.  A value put under a
present key replaces it.
-/

namespace Chartbook

inductive Datum where
  | text (s : String)
  | number (x : Float)
  deriving DecidableEq

def Datum.toJson : Datum → Json
  | text s => .text s
  | number x => .real x

abbrev Row := Keyed Datum

namespace Row

def toJson (r : Row) : Json :=
  .object (r.sorted.map fun (k, v) => (k, v.toJson))

end Row

end Chartbook
