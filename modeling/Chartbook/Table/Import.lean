import Chartbook.Error
import Chartbook.Table.Basic
import Chartbook.Table.Csv

/-!
# Importing tables

A table file has commas or semicolons between its fields: commas are tried
first, and a single column whose name contains a semicolon is the sign of the
other.  The first record names the columns.
-/

namespace Chartbook

inductive ImportFault where
  | unopened (path reason : String)
  | duplicateColumn (name : String)
  | empty
  deriving DecidableEq, Repr

def ImportFault.reason : ImportFault → String
  | unopened path reason => s!"Failed to open CSV file '{path}': {reason}"
  | duplicateColumn name => s!"Duplicate column name '{name}'"
  | empty => "empty or unreadable file"

def ImportFault.error (fault : ImportFault) : Error := .table fault.reason

namespace Table

/-- The name that a field of the first record gives to a column: a blank one is
replaced by a number. -/
def headerName (position : Nat) (field : String) : String :=
  let name := Text.trimmed field
  if name = "" then s!"Unnamed: {position}" else name

def firstRepeated? : List String → List String → Option String
  | _, [] => none
  | seen, name :: names =>
      if name ∈ seen then some name else firstRepeated? (name :: seen) names

def columnAt (records : List (List String)) (position : Nat) (name : String) :
    Column :=
  ⟨name, records.map fun fields =>
    (fields[position]?.map Cell.ofField).getD .null⟩

def ofRecords : List (List String) → Except Error Table
  | [] => .ok ⟨[]⟩
  | header :: records =>
      let names := header.mapIdx headerName
      match firstRepeated? [] names with
      | some name => .error (ImportFault.duplicateColumn name).error
      | none => .ok ⟨names.mapIdx fun i name => columnAt records i name⟩

def wantsSemicolon (t : Table) : Bool :=
  match t.columns with
  | [c] => c.name.toList.contains ';'
  | _ => false

def ofContent (content : List Char) : Except Error Table := do
  let table ← ofRecords (Csv.records ',' content)
  if table.wantsSemicolon then ofRecords (Csv.records ';' content)
  else pure table

/-- Reads a table from the text of a file; byte-order marks before it are
dropped. -/
def ofText (s : String) : Except Error Table := do
  let table ← ofContent (s.toList.dropWhile (· == Char.ofNat 0xFEFF))
  if table.rowCount = 0 then throw ImportFault.empty.error
  pure table

def ofBytes (bytes : ByteArray) : Except Error Table :=
  match String.fromUTF8? bytes with
  | some s => ofText s
  | none => .error (.io "stream did not contain valid UTF-8")

end Table

end Chartbook
