import Chartbook.Json.Basic
import Chartbook.Number.Shortest

/-!
# Writing JSON

Two forms of the same value: without any space, and indented by two spaces with
one element a line.
-/

namespace Chartbook.Json

def hexDigits (n : Nat) : List Char := Nat.toDigits 16 n

def escapeChar (c : Char) : List Char :=
  if c = '"' then ['\\', '"']
  else if c = '\\' then ['\\', '\\']
  else if c = '\x08' then ['\\', 'b']
  else if c = '\x0c' then ['\\', 'f']
  else if c = '\n' then ['\\', 'n']
  else if c = '\r' then ['\\', 'r']
  else if c = '\t' then ['\\', 't']
  else if c.toNat < 0x10 then ['\\', 'u', '0', '0', '0'] ++ hexDigits c.toNat
  else if c.toNat < 0x20 then ['\\', 'u', '0', '0'] ++ hexDigits c.toNat
  else [c]

def quoted (s : String) : List Char :=
  '"' :: s.toList.flatMap escapeChar ++ ['"']

def positional (ds : List Char) (point : Int) : List Char :=
  if point ≤ 0 then '0' :: '.' :: List.replicate (-point).toNat '0' ++ ds
  else if point.toNat < ds.length then
    ds.take point.toNat ++ '.' :: ds.drop point.toNat
  else ds ++ List.replicate (point.toNat - ds.length) '0' ++ ['.', '0']

def scientific (ds : List Char) (exponent : Int) : List Char :=
  ds.take 1 ++ (if ds.length ≤ 1 then [] else '.' :: ds.drop 1) ++
    'e' :: (if exponent < 0 then ['-'] else []) ++
      Chartbook.Number.digits exponent.natAbs

/--
A real number keeps a point or an exponent, so that it is read as a real number
again.  It is written without exponent from `10 ^ -5` up to `10 ^ 16`.
-/
def realChars (x : Float) : List Char :=
  let b := Chartbook.Number.magnitude x
  if b < Chartbook.Number.infinite then
    (if Chartbook.Number.isNegative x then ['-'] else []) ++
      if b = 0 then ['0', '.', '0']
      else
        let d := Chartbook.Number.shortest .toEven b
        let ds := Chartbook.Number.digits d.coefficient
        let point := ds.length + d.exponent
        if -5 < point ∧ point ≤ 16 then positional ds point
        else scientific ds (point - 1)
  else ['n', 'u', 'l', 'l']

def Number.chars : Number → List Char
  | .natural n => Chartbook.Number.digits n
  | .negative n => '-' :: Chartbook.Number.digits n
  | .real x => realChars x

mutual

def compact : Json → List Char
  | null | illFormed => ['n', 'u', 'l', 'l']
  | bool b => if b then ['t', 'r', 'u', 'e'] else ['f', 'a', 'l', 's', 'e']
  | number n => n.chars
  | text s => quoted s
  | array [] => ['[', ']']
  | array (v :: vs) => '[' :: compact v ++ compactItems vs
  | object [] => ['\x7b', '\x7d']
  | object ((k, v) :: ms) =>
      '\x7b' :: quoted k ++ ':' :: compact v ++ compactMembers ms

def compactItems : List Json → List Char
  | [] => [']']
  | v :: vs => ',' :: compact v ++ compactItems vs

def compactMembers : List (String × Json) → List Char
  | [] => ['\x7d']
  | (k, v) :: ms => ',' :: quoted k ++ ':' :: compact v ++ compactMembers ms

end

def newLine (level : Nat) : List Char := '\n' :: List.replicate (2 * level) ' '

mutual

def indented (level : Nat) : Json → List Char
  | null | illFormed => ['n', 'u', 'l', 'l']
  | bool b => if b then ['t', 'r', 'u', 'e'] else ['f', 'a', 'l', 's', 'e']
  | number n => n.chars
  | text s => quoted s
  | array [] => ['[', ']']
  | array (v :: vs) =>
      '[' :: newLine (level + 1) ++ indented (level + 1) v ++
        indentedItems level vs
  | object [] => ['\x7b', '\x7d']
  | object ((k, v) :: ms) =>
      '\x7b' :: newLine (level + 1) ++ quoted k ++
        ':' :: ' ' :: indented (level + 1) v ++ indentedMembers level ms

def indentedItems (level : Nat) : List Json → List Char
  | [] => newLine level ++ [']']
  | v :: vs =>
      ',' :: newLine (level + 1) ++ indented (level + 1) v ++
        indentedItems level vs

def indentedMembers (level : Nat) : List (String × Json) → List Char
  | [] => newLine level ++ ['\x7d']
  | (k, v) :: ms =>
      ',' :: newLine (level + 1) ++ quoted k ++
        ':' :: ' ' :: indented (level + 1) v ++ indentedMembers level ms

end

def render (v : Json) : String := String.ofList (compact v)

def renderIndented (v : Json) : String := String.ofList (indented 0 v)

end Chartbook.Json
