import Chartbook.Keyed

/-!
# JSON values

The values of JSON documents.  Objects keep their members in order, repeated
keys included; what a repetition means is up to the reader of a value.
-/

namespace Chartbook

/-- Numbers keep their kind: a count below `2 ^ 64`, the opposite of a number
from 1 to `2 ^ 63`, or a real number, which may be whole. -/
inductive Json.Number where
  | natural (n : Nat)
  | negative (n : Nat)
  | real (x : Float)
  deriving DecidableEq

inductive Json where
  | null
  | bool (b : Bool)
  | number (n : Json.Number)
  | text (s : String)
  | array (items : List Json)
  | object (members : List (String × Json))
  /-- A string, or an object with a key, in which an escape names half a
  character.  Such a thing has no value; it may only stand where values are
  passed over. -/
  | illFormed
  deriving Inhabited

namespace Json

def real (x : Float) : Json := number (.real x)

def natural (n : Nat) : Json := number (.natural n)

def texts (ss : List String) : Json := array (ss.map text)

def optionalText : Option String → Json
  | some s => text s
  | none => null

mutual

def depth : Json → Nat
  | array items => depthOfItems items + 1
  | object members => depthOfMembers members + 1
  | _ => 0

def depthOfItems : List Json → Nat
  | [] => 0
  | v :: vs => max (depth v) (depthOfItems vs)

def depthOfMembers : List (String × Json) → Nat
  | [] => 0
  | (_, v) :: ms => max (depth v) (depthOfMembers ms)

end

mutual

def isSound : Json → Bool
  | number (.real x) => x.isFinite
  | array items => areSound items
  | object members => membersSound members
  | illFormed => false
  | _ => true

def areSound : List Json → Bool
  | [] => true
  | v :: vs => isSound v && areSound vs

def membersSound : List (String × Json) → Bool
  | [] => true
  | (_, v) :: ms => isSound v && membersSound ms

end

mutual

def lastMembers : Json → Json
  | array items => array (lastOfItems items)
  | object members => object (lastOfMembers [] members)
  | v => v

def lastOfItems : List Json → List Json
  | [] => []
  | v :: vs => lastMembers v :: lastOfItems vs

def lastOfMembers (kept : List (String × Json)) :
    List (String × Json) → List (String × Json)
  | [] => kept
  | (k, v) :: ms => lastOfMembers (putPair k (lastMembers v) kept) ms

end

mutual

/-- The members of every object in ascending order of their keys. -/
def ascending : Json → Json
  | array items => array (ascendingItems items)
  | object members =>
      object ((ascendingMembers members).mergeSort fun a b => a.1 ≤ b.1)
  | v => v

def ascendingItems : List Json → List Json
  | [] => []
  | v :: vs => ascending v :: ascendingItems vs

def ascendingMembers : List (String × Json) → List (String × Json)
  | [] => []
  | (k, v) :: ms => (k, ascending v) :: ascendingMembers ms

end

end Json

end Chartbook
