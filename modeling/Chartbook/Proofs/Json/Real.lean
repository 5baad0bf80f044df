import Chartbook.Json.Printer
import Chartbook.Proofs.Number.Digits

/-!
# Real numbers in documents

A finite number is written in digits, signs, a point and an exponent, so no
finite number is written like the word null; that word stands for infinity and
for what is not a number.
-/

namespace Chartbook.Json

def isRealChar (c : Char) : Bool :=
  Chartbook.Number.isDigit c || c == '-' || c == '.' || c == 'e'

private theorem isRealChar_of_isDigit {c : Char}
    (h : Chartbook.Number.isDigit c = true) : isRealChar c = true := by
  simp [isRealChar, h]

theorem all_isRealChar_digits (n : Nat) :
    (Chartbook.Number.digits n).all isRealChar = true :=
  List.all_eq_true.mpr fun _ hc =>
    isRealChar_of_isDigit (Chartbook.Number.isDigit_of_mem_digits hc)

private theorem all_isRealChar_zeros (n : Nat) :
    (List.replicate n '0').all isRealChar = true := by
  rw [List.all_replicate]
  split <;> rfl

section Forms

variable {ds : List Char} (hds : ds.all isRealChar = true)

include hds

theorem all_isRealChar_take (n : Nat) : (ds.take n).all isRealChar = true :=
  List.all_eq_true.mpr fun _ hc =>
    List.all_eq_true.mp hds _ (List.mem_of_mem_take hc)

theorem all_isRealChar_drop (n : Nat) : (ds.drop n).all isRealChar = true :=
  List.all_eq_true.mpr fun _ hc =>
    List.all_eq_true.mp hds _ (List.mem_of_mem_drop hc)

private theorem all_isRealChar_positional (point : Int) :
    (positional ds point).all isRealChar = true := by
  rw [positional]
  split
  · simp only [List.all_append, List.all_cons, all_isRealChar_zeros, hds]
    rfl
  · split
    · simp only [List.all_append, List.all_cons, all_isRealChar_take hds,
        all_isRealChar_drop hds]
      rfl
    · simp only [List.all_append, all_isRealChar_zeros, hds]
      rfl

private theorem all_isRealChar_scientific (exponent : Int) :
    (scientific ds exponent).all isRealChar = true := by
  have hfraction : (if ds.length ≤ 1 then [] else
      '.' :: ds.drop 1).all isRealChar = true := by
    split
    · rfl
    · rw [List.all_cons, all_isRealChar_drop hds]
      rfl
  have hsign : (if exponent < 0 then ['-'] else []).all isRealChar = true := by
    split <;> rfl
  simp only [scientific, List.all_append, List.all_cons,
    all_isRealChar_take hds, all_isRealChar_digits, hfraction, hsign]
  rfl

end Forms

theorem all_isRealChar_realChars {x : Float}
    (h : Chartbook.Number.magnitude x < Chartbook.Number.infinite) :
    (realChars x).all isRealChar = true := by
  have hsign : (if Chartbook.Number.isNegative x then ['-']
      else []).all isRealChar = true := by
    split <;> rfl
  rw [realChars, if_pos h, List.all_append, hsign, Bool.true_and]
  split
  · rfl
  · dsimp only
    split
    · exact all_isRealChar_positional (all_isRealChar_digits _) _
    · exact all_isRealChar_scientific (all_isRealChar_digits _) _

theorem realChars_eq_null_iff (x : Float) :
    realChars x = null.compact ↔
      Chartbook.Number.infinite ≤ Chartbook.Number.magnitude x := by
  constructor
  · intro hnull
    refine Nat.not_lt.mp fun hfinite => ?_
    have hall := all_isRealChar_realChars hfinite
    rw [hnull] at hall
    contradiction
  · intro hinfinite
    rw [realChars, if_neg (Nat.not_lt.mpr hinfinite)]
    rfl

end Chartbook.Json
