import Chartbook.Error
import Chartbook.Json.Reader
import Chartbook.Plan.Codec
import Chartbook.Classification

/-!
# Replies

The replies of a classifier are texts that should be JSON. A reply may stand in
a fence of backticks, with or without the tag for JSON.
-/

namespace Chartbook.Reply

def backtick : Char := '\x60'

def stripBackticks (s : List Char) : List Char :=
  ((s.dropWhile (· == backtick)).reverse.dropWhile (· == backtick)).reverse

def stripTag (s : List Char) : List Char :=
  if Text.asciiLower (s.take 4) = ['j', 's', 'o', 'n'] then s.drop 4 else s

def isFenced (s : List Char) : Bool := (List.replicate 3 backtick).isPrefixOf s

def unfence (s : List Char) : List Char :=
  let s := Text.trim s
  if isFenced s then Text.trim (stripTag (stripBackticks s)) else s

/-- Reads a reply; one that cannot be read is kept in the error. -/
def decode {α : Type} (ofJson? : Json → Option α) (reply : String)
    (rounding : Json.Rounding := .quick) : Except Error α :=
  match Json.ofChars? rounding (unfence reply.toList) with
  | none => .error (.reply "not a JSON document" reply)
  | some v =>
      match ofJson? v with
      | none => .error (.reply "not the expected fields" reply)
      | some a => .ok a

def columns (reply : String) (rounding : Json.Rounding := .quick) :
    Except Error (List ColumnClass) :=
  decode ColumnClass.replyOfJson? reply rounding

def plan (reply : String) (rounding : Json.Rounding := .quick) :
    Except Error Plan :=
  decode Plan.ofJson? reply rounding

end Chartbook.Reply
