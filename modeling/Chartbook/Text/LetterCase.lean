import Chartbook.Text.LetterCase.Ranges

/-!
# Lower case

The lower-case form of a text.  Almost every character is mapped on its own; a
capital I with a dot becomes two characters, and a capital sigma at the end of a
word takes the final form.
-/

namespace Chartbook.Text

def lowerChar (c : Char) : Char :=
  match lowerRuns.find? fun r =>
      r.first ≤ c.toNat && c.toNat ≤ r.last &&
        (c.toNat - r.first) % r.step == 0 with
  | some r => Char.ofNat ((c.toNat : Int) + r.offset).toNat
  | none => c

private def within (ranges : List (Nat × Nat)) (c : Char) : Bool :=
  ranges.any fun r => r.1 ≤ c.toNat && c.toNat ≤ r.2

def meetsCased (s : List Char) : Bool :=
  match s.dropWhile (within passedRanges) with
  | [] => false
  | c :: _ => within casedRanges c

/-- The lower-case form of `c`, with what stands before it (nearest first) and
after it. -/
def lowerIn (before : List Char) (c : Char) (after : List Char) : List Char :=
  if c = 'Σ' then
    if meetsCased before && !meetsCased after then ['ς'] else ['σ']
  else if c = 'İ' then ['i', Char.ofNat 0x307]
  else [lowerChar c]

def lowerFrom (before : List Char) : List Char → List Char
  | [] => []
  | c :: after => lowerIn before c after ++ lowerFrom (c :: before) after

def lower (s : String) : String := String.ofList (lowerFrom [] s.toList)

def asciiLower (s : List Char) : List Char := s.map Char.toLower

end Chartbook.Text
