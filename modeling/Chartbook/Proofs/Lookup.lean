import Mathlib.Data.List.Nodup

/-!
# Values looked up by key

A key finds the value of the first pair that has it.  Where keys are distinct, a
key finds exactly the values that it is paired with.
-/

namespace Chartbook

variable {κ α β : Type} [BEq κ]

theorem lookup_map_snd (f : α → β) (l : List (κ × α)) (key : κ) :
    (l.map fun pair => (pair.1, f pair.2)).lookup key =
      (l.lookup key).map f := by
  induction l with
  | nil => rfl
  | cons pair l ih =>
      rw [List.map_cons, List.lookup_cons, List.lookup_cons]
      split
      · rfl
      · exact ih

section Lawful

variable [LawfulBEq κ] {l : List (κ × α)} {key : κ} {value : α}

theorem lookup_isSome_iff_mem :
    (l.lookup key).isSome = true ↔ key ∈ l.map Prod.fst := by
  rw [List.lookup_isSome_iff, List.mem_map]
  constructor
  · rintro ⟨pair, hpair, hkey⟩
    exact ⟨pair, hpair, (eq_of_beq hkey).symm⟩
  · rintro ⟨pair, hpair, rfl⟩
    exact ⟨pair, hpair, beq_self_eq_true _⟩

theorem lookup_of_notMem (h : key ∉ l.map Prod.fst) : l.lookup key = none := by
  rw [← Option.not_isSome_iff_eq_none, lookup_isSome_iff_mem]
  exact h

theorem lookup_eq_some_iff_mem (h : (l.map Prod.fst).Nodup) :
    l.lookup key = some value ↔ (key, value) ∈ l := by
  induction l with
  | nil => simp
  | cons pair l ih =>
      obtain ⟨k, v⟩ := pair
      obtain ⟨hnew, hrest⟩ := List.nodup_cons.mp h
      rw [List.lookup_cons]
      by_cases hkey : key = k
      · subst hkey
        have hother : (key, value) ∉ l :=
          fun hmem => hnew (List.mem_map.mpr ⟨_, hmem, rfl⟩)
        simp [hother, eq_comm]
      · have hb : (key == k) = false := beq_false_of_ne hkey
        rw [hb, ih hrest]
        simp [hkey]

end Lawful

end Chartbook
