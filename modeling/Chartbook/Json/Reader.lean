import Chartbook.Json.Token

/-!
# Reading JSON

Tokens are put together by a machine with a stack of open arrays and objects.
The whole text has to be one value; commas, colons and brackets must stand
exactly where the grammar wants them.
-/

namespace Chartbook.Json

/-- An array or object that is still open.  Its last element comes first. -/
inductive Frame where
  | array (items : List Json)
  | object (members : List (String × Json)) (broken : Bool)
  | member (key : Option String) (members : List (String × Json))
      (broken : Bool)

inductive Expect where
  | value
  | firstValue
  | key
  | firstKey
  | colon
  | separator
  | nothing (result : Json)

structure Reader where
  frames : List Frame
  expect : Expect

namespace Reader

def put (v : Json) : List Frame → Option Reader
  | [] => some ⟨[], .nothing v⟩
  | .array items :: frames => some ⟨.array (v :: items) :: frames, .separator⟩
  | .member (some key) members broken :: frames =>
      some ⟨.object ((key, v) :: members) broken :: frames, .separator⟩
  | .member none members _ :: frames =>
      some ⟨.object members true :: frames, .separator⟩
  | .object .. :: _ => none

def value (frames : List Frame) : Token → Option Reader
  | .null => put .null frames
  | .bool b => put (.bool b) frames
  | .number n => put (.number n) frames
  | .text (some s) => put (.text s) frames
  | .text none => put .illFormed frames
  | .openArray => some ⟨.array [] :: frames, .firstValue⟩
  | .openObject => some ⟨.object [] false :: frames, .firstKey⟩
  | _ => none

def key : List Frame → Token → Option Reader
  | .object members broken :: frames, .text k =>
      some ⟨.member k members broken :: frames, .colon⟩
  | _, _ => none

def close : List Frame → Token → Option Reader
  | .array items :: frames, .closeArray => put (.array items.reverse) frames
  | .object members broken :: frames, .closeObject =>
      put (if broken then .illFormed else .object members.reverse) frames
  | _, _ => none

def separator : List Frame → Token → Option Reader
  | .array items :: frames, .comma => some ⟨.array items :: frames, .value⟩
  | .object members broken :: frames, .comma =>
      some ⟨.object members broken :: frames, .key⟩
  | frames, t => close frames t

def step (r : Reader) (t : Token) : Option Reader :=
  match r.expect with
  | .value => value r.frames t
  | .firstValue =>
      match t with
      | .closeArray => close r.frames t
      | t => value r.frames t
  | .key => key r.frames t
  | .firstKey =>
      match t with
      | .closeObject => close r.frames t
      | t => key r.frames t
  | .colon =>
      match t with
      | .colon => some { r with expect := .value }
      | _ => none
  | .separator => separator r.frames t
  | .nothing _ => none

def run (r : Reader) : List Token → Option Reader
  | [] => some r
  | t :: rest =>
      match r.step t with
      | some r => run r rest
      | none => none

end Reader

def ofTokens? (ts : List Token) : Option Json :=
  match Reader.run ⟨[], .value⟩ ts with
  | some ⟨_, .nothing v⟩ => some v
  | _ => none

def ofChars? (rounding : Rounding) (s : List Char) : Option Json :=
  (tokens? rounding s).bind ofTokens?

def parse? (s : String) (rounding : Rounding := .quick) : Option Json :=
  ofChars? rounding s.toList

end Chartbook.Json
