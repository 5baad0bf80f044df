/-!
# Delimited records

Records of fields separated by a delimiter.  A record ends with a line feed, a
carriage return or both; empty lines are passed over.  A field that starts with
a quote runs to the closing quote, a doubled quote inside it is a quote, and
what follows the closing quote is added to the field.  An open quote runs to the
end of the text.
-/

namespace Chartbook.Csv

inductive Mode where
  | recordStart
  | fieldStart
  | plain
  | quoted
  | quote
  deriving DecidableEq, Repr

/-- The records, fields and characters read so far, each with the last one
first. -/
structure State where
  mode : Mode := .recordStart
  chars : List Char := []
  fields : List String := []
  records : List (List String) := []

namespace State

def add (s : State) (mode : Mode) (c : Char) : State :=
  { s with mode, chars := c :: s.chars }

def endField (s : State) : State :=
  { s with
    mode := .fieldStart
    chars := []
    fields := String.ofList s.chars.reverse :: s.fields }

def endRecord (s : State) : State :=
  let fields := String.ofList s.chars.reverse :: s.fields
  { mode := .recordStart
    chars := []
    fields := []
    records := fields.reverse :: s.records }

end State

def isTerminator (c : Char) : Bool := c == '\n' || c == '\r'

/-- Reads a character outside quotes; `mode` is what it starts or goes on
with. -/
def stepOpen (delimiter : Char) (s : State) (c : Char) : State :=
  if c = delimiter then s.endField
  else if isTerminator c then s.endRecord
  else s.add .plain c

def stepFieldStart (delimiter : Char) (s : State) (c : Char) : State :=
  if c = '"' then { s with mode := .quoted } else stepOpen delimiter s c

def step (delimiter : Char) (s : State) (c : Char) : State :=
  match s.mode with
  | .recordStart => if isTerminator c then s else stepFieldStart delimiter s c
  | .fieldStart => stepFieldStart delimiter s c
  | .plain => stepOpen delimiter s c
  | .quoted => if c = '"' then { s with mode := .quote } else s.add .quoted c
  | .quote => if c = '"' then s.add .quoted c else stepOpen delimiter s c

def State.finish (s : State) : List (List String) :=
  match s.mode with
  | .recordStart => s.records.reverse
  | _ => s.endRecord.records.reverse

def records (delimiter : Char) (content : List Char) : List (List String) :=
  (content.foldl (step delimiter) {}).finish

end Chartbook.Csv
