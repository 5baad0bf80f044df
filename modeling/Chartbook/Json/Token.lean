import Chartbook.Json.Basic
import Chartbook.Json.Rounding
import Chartbook.Number.Literal

/-!
# JSON tokens

A text is cut into tokens by a scanner that reads one character at a time.  The
scanner's state says what the characters since the last token have begun.
-/

namespace Chartbook.Json

inductive Token where
  | openArray
  | closeArray
  | openObject
  | closeObject
  | comma
  | colon
  | null
  | bool (b : Bool)
  | number (n : Number)
  | text (s : Option String)

def wholeDigits? (s : List Char) : Option (List Char × List Char) :=
  match Chartbook.Number.spanDigits s with
  | ([], _) => none
  | (['0'], rest) => some (['0'], rest)
  | ('0' :: _, _) => none
  | r => some r

def fractionDigits? : List Char → Option (List Char × List Char)
  | '.' :: rest =>
      match Chartbook.Number.spanDigits rest with
      | ([], _) => none
      | r => some r
  | s => some ([], s)

def Number.ofWhole (rounding : Rounding) (minus : Bool)
    (whole : List Char) : Number :=
  let n := Chartbook.Number.digitsValue whole
  if minus then
    if 1 ≤ n ∧ n ≤ 0x8000000000000000 then .negative n
    else .real ((Numeral.mk whole [] 0).toFloat minus rounding)
  else if n < 0x10000000000000000 then .natural n
  else .real ((Numeral.mk whole [] 0).toFloat minus rounding)

def Number.ofChars? (rounding : Rounding) (s : List Char) : Option Number := do
  let (minus, s) := match s with
    | '-' :: rest => (true, rest)
    | s => (false, s)
  let (whole, s) ← wholeDigits? s
  if s = [] then
    some (.ofWhole rounding minus whole)
  else
    let (fraction, s) ← fractionDigits? s
    let e ← Chartbook.Number.exponent? s
    some (.real ((Numeral.mk whole fraction e).toFloat minus rounding))

structure Draft where
  chars : List Char := []
  half : Option Nat := none
  broken : Bool := false

namespace Draft

def add (d : Draft) (c : Char) : Draft :=
  { chars := c :: d.chars, half := none, broken := d.broken || d.half.isSome }

/-- Adds what four hexadecimal digits name: a character or half of one. -/
def addUnit (d : Draft) (n : Nat) : Draft :=
  if 0xD800 ≤ n ∧ n < 0xDC00 then
    { d with half := some n, broken := d.broken || d.half.isSome }
  else if 0xDC00 ≤ n ∧ n < 0xE000 then
    match d.half with
    | some h =>
        let code := 0x10000 + (h - 0xD800) * 0x400 + (n - 0xDC00)
        { d with chars := Char.ofNat code :: d.chars, half := none }
    | none => { d with broken := true }
  else d.add (Char.ofNat n)

def finish (d : Draft) : Option String :=
  if d.broken || d.half.isSome then none
  else some (String.ofList d.chars.reverse)

end Draft

inductive Scan where
  | between
  | word (letters : List Char)
  | number (chars : List Char)
  | text (draft : Draft)
  | escape (draft : Draft)
  | unit (draft : Draft) (value : Nat) (left : Nat)

def isSpace (c : Char) : Bool := c == ' ' || c == '\n' || c == '\t' || c == '\r'

def isLetter (c : Char) : Bool := 'a' ≤ c && c ≤ 'z'

def isNumberChar (c : Char) : Bool :=
  Chartbook.Number.isDigit c || c == '-' || c == '+' || c == '.' || c == 'e' ||
    c == 'E'

def hexDigit? (c : Char) : Option Nat :=
  if '0' ≤ c ∧ c ≤ '9' then some (c.toNat - '0'.toNat)
  else if 'a' ≤ c ∧ c ≤ 'f' then some (c.toNat - 'a'.toNat + 10)
  else if 'A' ≤ c ∧ c ≤ 'F' then some (c.toNat - 'A'.toNat + 10)
  else none

def escapes : List (Char × Char) := [
  ('"', '"'), ('\\', '\\'), ('/', '/'), ('b', '\x08'), ('f', '\x0c'),
  ('n', '\n'), ('r', '\r'), ('t', '\t')]

def Token.punctuation? (c : Char) : Option Token :=
  if c = '[' then some .openArray
  else if c = ']' then some .closeArray
  else if c = '\x7b' then some .openObject
  else if c = '\x7d' then some .closeObject
  else if c = ',' then some .comma
  else if c = ':' then some .colon
  else none

def Token.word? (letters : List Char) : Option Token :=
  if letters = ['n', 'u', 'l', 'l'] then some .null
  else if letters = ['t', 'r', 'u', 'e'] then some (.bool true)
  else if letters = ['f', 'a', 'l', 's', 'e'] then some (.bool false)
  else none

namespace Scan

def start (done : List Token) (c : Char) : Option (List Token × Scan) :=
  if isSpace c then some (done, between)
  else if c = '"' then some (done, text {})
  else if isLetter c then some (done, word [c])
  else if isNumberChar c then some (done, number [c])
  else (Token.punctuation? c).map fun t => (t :: done, between)

/-- Ends the token that has been begun.  The last token of `done` comes
first. -/
def finish (rounding : Rounding) (done : List Token) :
    Scan → Option (List Token)
  | between => some done
  | word letters => (Token.word? letters.reverse).map (· :: done)
  | number chars =>
      (Number.ofChars? rounding chars.reverse).map fun n => .number n :: done
  | text _ | escape _ | unit .. => none

def step (rounding : Rounding) (done : List Token) (c : Char) :
    Scan → Option (List Token × Scan)
  | between => start done c
  | word letters =>
      if isLetter c then some (done, word (c :: letters))
      else (finish rounding done (word letters)).bind fun done => start done c
  | number chars =>
      if isNumberChar c then some (done, number (c :: chars))
      else (finish rounding done (number chars)).bind fun done => start done c
  | text d =>
      if c = '"' then some (.text d.finish :: done, between)
      else if c = '\\' then some (done, escape d)
      else if c.toNat < 0x20 then none
      else some (done, text (d.add c))
  | escape d =>
      if c = 'u' then some (done, unit d 0 4)
      else (escapes.lookup c).map fun x => (done, text (d.add x))
  | unit d value left =>
      (hexDigit? c).map fun n =>
        let value := 16 * value + n
        if left ≤ 1 then (done, text (d.addUnit value))
        else (done, unit d value (left - 1))

def run (rounding : Rounding) (done : List Token) (scan : Scan) :
    List Char → Option (List Token)
  | [] => (scan.finish rounding done).map List.reverse
  | c :: rest =>
      match scan.step rounding done c with
      | some (done, scan) => run rounding done scan rest
      | none => none

end Scan

def tokens? (rounding : Rounding) (s : List Char) : Option (List Token) :=
  Scan.run rounding [] .between s

end Chartbook.Json
