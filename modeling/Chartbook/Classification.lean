import Chartbook.Error
import Chartbook.Json.Record
import Chartbook.Table.Basic

/-!
# Column classification

What a classifier says about the columns of a table.  Its labels are taken as
they come: an unknown type is `unknown`, and the word null in a text field means
that the field is absent.  A classification is valid for a table if it names
columns of the table, each once.
-/

namespace Chartbook

inductive Dtype where
  | number
  | string
  | date
  | percent
  | currency
  | category
  | unknown
  deriving DecidableEq, Repr, Inhabited

namespace Dtype

def text : Dtype → String
  | number => "number"
  | string => "string"
  | date => "date"
  | percent => "percent"
  | currency => "currency"
  | category => "category"
  | unknown => "unknown"

def ofLabel (label : String) : Dtype :=
  let label := Text.lower (Text.trimmed label)
  ([number, string, date, percent, currency, category].find?
    (·.text = label)).getD unknown

def isNumeric : Dtype → Bool
  | number | percent | currency => true
  | _ => false

def ofJson? : Json → Option Dtype
  | .null => some unknown
  | .text label => some (ofLabel label)
  | _ => none

end Dtype

structure ColumnClass where
  name : String
  dtype : Dtype := .unknown
  semantic : Option String := none
  format : Option String := none
  deriving DecidableEq, Repr

namespace ColumnClass

def ofJson? (v : Json) : Option ColumnClass :=
  match v.fields? ["name", "dtype", "semantic", "format"] 1 with
  | some [name, dtype, semantic, format] => do
      some ⟨← Json.required Json.text? name,
        ← Json.withDefault .unknown Dtype.ofJson? dtype,
        ← Json.optional Json.text? semantic, ← Json.optional Json.text? format⟩
  | _ => none

def toJson (c : ColumnClass) : Json := .object [
  ("name", .text c.name),
  ("dtype", .text c.dtype.text),
  ("semantic", .optionalText c.semantic),
  ("format", .optionalText c.format)]

def replyOfJson? (v : Json) : Option (List ColumnClass) :=
  match v.fields? ["columns"] 1 with
  | some [columns] => Json.required (Json.list? ofJson?) columns
  | _ => none

def isNullWord (s : String) : Bool :=
  Text.asciiLower (Text.trim s.toList) == ['n', 'u', 'l', 'l']

def withoutNullWord (s : Option String) : Option String :=
  s.filter fun s => !isNullWord s

def cleaned (c : ColumnClass) : ColumnClass :=
  { c with
    semantic := withoutNullWord c.semantic
    format := withoutNullWord c.format }

end ColumnClass

inductive ClassificationFault where
  | noColumn (name : String)
  | repeated (name : String)
  deriving DecidableEq, Repr

def ClassificationFault.reason : ClassificationFault → String
  | noColumn name => s!"column '{name}' does not exist in the dataset"
  | repeated name => s!"column '{name}' is classified more than once"

def ClassificationFault.error (fault : ClassificationFault) : Error :=
  .classification fault.reason

def Table.checkFrom (t : Table) (seen : List String) :
    List ColumnClass → Except Error (List ColumnClass)
  | [] => .ok []
  | c :: rest =>
      if (t.column? c.name).isNone then
        .error (ClassificationFault.noColumn c.name).error
      else if c.name ∈ seen then
        .error (ClassificationFault.repeated c.name).error
      else (t.checkFrom (c.name :: seen) rest).map (c.cleaned :: ·)

/-- The classification with null words removed, if it is valid for the table. -/
def Table.check (t : Table) (columns : List ColumnClass) :
    Except Error (List ColumnClass) :=
  t.checkFrom [] columns

end Chartbook
