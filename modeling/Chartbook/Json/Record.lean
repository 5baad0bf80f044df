import Chartbook.Json.Basic

/-!
# Records

Reading the fields of a record from a JSON value.  A record is an object with
the fields' names as keys, or a list of the fields in their order.  Other keys
of an object are passed over; a field that is given twice, a list with too many
elements and a list without its first `least` fields are refused.
-/

namespace Chartbook.Json

def valuesOf (key : String) (members : List (String × Json)) : List Json :=
  (members.filter (·.1 = key)).map Prod.snd

/-- The value of a field that is given at most once. -/
def field? (members : List (String × Json)) (name : String) :
    Option (Option Json) :=
  match valuesOf name members with
  | [] => some none
  | [v] => some (some v)
  | _ => none

def fields? (names : List String) (least : Nat) :
    Json → Option (List (Option Json))
  | object members => names.mapM (field? members)
  | array items =>
      if least ≤ items.length ∧ items.length ≤ names.length then
        some (items.map some ++
          List.replicate (names.length - items.length) none)
      else none
  | _ => none

def text? : Json → Option String
  | text s => some s
  | _ => none

def bool? : Json → Option Bool
  | bool b => some b
  | _ => none

def natural? : Json → Option Nat
  | number (.natural n) => some n
  | _ => none

def list? {α : Type} (read : Json → Option α) : Json → Option (List α)
  | array items => items.mapM read
  | _ => none

def required {α : Type} (read : Json → Option α) (field : Option Json) :
    Option α :=
  field.bind read

def optional {α : Type} (read : Json → Option α) :
    Option Json → Option (Option α)
  | none | some .null => some none
  | some v => (read v).map some

def withDefault {α : Type} (default : α) (read : Json → Option α) :
    Option Json → Option α
  | none => some default
  | some v => read v

end Chartbook.Json
