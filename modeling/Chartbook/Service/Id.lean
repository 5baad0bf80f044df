import Chartbook.Json.Printer
import Chartbook.Keyed

/-!
# Identifiers

Stored values get an identifier that is not in use: a word, an underscore and
six hexadecimal digits.  The digits are drawn at random; the draws are a list
here, and the first unused one is taken.
-/

namespace Chartbook

abbrev Tag := Fin 0x1000000

namespace Tag

def chars (t : Tag) : List Char :=
  let ds := Json.hexDigits t.val
  List.replicate (6 - ds.length) '0' ++ ds

end Tag

def newId (word : String) (t : Tag) : String :=
  String.ofList (word.toList ++ '_' :: t.chars)

def isIdOf (word id : String) : Bool :=
  match (word.toList ++ ['_']).isPrefixOf? id.toList with
  | some digits => digits.length == 6 && digits.all fun c =>
      Number.isDigit c || ('a' ≤ c && c ≤ 'f')
  | none => false

namespace Keyed

variable {α : Type}

/-- The first drawn identifier that is not in use. -/
def freshId? (s : Keyed α) (word : String) (draws : List Tag) : Option String :=
  (draws.map (newId word)).find? fun id => (s.get? id).isNone

def insertNew? (s : Keyed α) (word : String) (draws : List Tag) (value : α) :
    Option (String × Keyed α) :=
  (s.freshId? word draws).map fun id => (id, s.insert id value)

end Keyed

end Chartbook
