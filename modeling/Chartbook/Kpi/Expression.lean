import Chartbook.Text.Blank
import Chartbook.Text.LetterCase

/-!
# KPI expressions

An expression is one call: a name of letters and underscores, then a list of
column names in parentheses, separated by commas.  Calls inside calls, operators
and literals are not in the language.
-/

namespace Chartbook

inductive ExpressionError where
  | malformed (expression : String)
  | notAllowed (function expression : String)
  | arity (function : String) (expected found : Nat) (expression : String)
  | noColumn (column expression : String)
  deriving DecidableEq, Repr

def ExpressionError.message : ExpressionError → String
  | malformed e => s!"invalid KPI expression: '{e}'"
  | notAllowed f e => s!"function '{f}' is not allowed in '{e}'"
  | arity f expected found e =>
      s!"function '{f}' takes {expected} argument(s) but got {found} in '{e}'"
  | noColumn c e => s!"column '{c}' not found in '{e}'"

/-- A call with its function in lower case; the arguments are trimmed and not
empty. -/
structure Expression where
  function : String
  args : List String
  deriving DecidableEq, Repr

namespace Expression

def isNameChar (c : Char) : Bool := c.isAlpha || c == '_'

def args? (inner : List Char) : Option (List String) :=
  if inner.any fun c => c == '(' || c == ')' then none
  else
    let args := (inner.splitOn ',').map Text.trim
    if args.any List.isEmpty then none else some (args.map String.ofList)

def stripClosing? (s : List Char) : Option (List Char) :=
  match s.reverse with
  | ')' :: inner => some inner.reverse
  | _ => none

def name? (s : List Char) : Option String :=
  let name := Text.trimEnd s
  if name ≠ [] ∧ name.all isNameChar then
    some (String.ofList (Text.asciiLower name))
  else none

def ofChars? (source : List Char) : Option Expression :=
  let s := Text.trim source
  match s.dropWhile (· ≠ '(') with
  | [] => none
  | _ :: rest => do
      some ⟨← name? (s.takeWhile (· ≠ '(')), ← args? (← stripClosing? rest)⟩

def parse (source : String) : Except ExpressionError Expression :=
  match ofChars? source.toList with
  | some e => .ok e
  | none => .error (.malformed source)

end Expression

end Chartbook
