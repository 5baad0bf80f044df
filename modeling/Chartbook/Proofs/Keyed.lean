import Chartbook.Proofs.Lookup
import Chartbook.Service.Id

/-!
# Keyed collections that grow

A value that is stored under an unused identifier leaves every other value where
it is.  `Kept` is the relation between a collection and any later one that was
reached by such insertions alone.
-/

namespace Chartbook.Keyed

variable {α : Type}

/-- Every value of the first collection stands in the second, under its key. -/
def Kept (s s' : Keyed α) : Prop :=
  ∀ key value, s.get? key = some value → s'.get? key = some value

theorem Kept.refl (s : Keyed α) : s.Kept s := fun _ _ h => h

theorem Kept.trans {s s' s'' : Keyed α} (h : s.Kept s') (h' : s'.Kept s'') :
    s.Kept s'' := fun key value hget => h' key value (h key value hget)

theorem kept_insert {s : Keyed α} {key : String} (h : s.get? key = none)
    (value : α) : s.Kept (s.insert key value) := by
  intro k v hget
  have hne : k ≠ key := by
    rintro rfl
    rw [h] at hget
    contradiction
  rw [get?_insert, if_neg hne, hget]

theorem get?_eq_none_iff {s : Keyed α} {key : String} :
    s.get? key = none ↔ key ∉ s.keys := by
  rw [get?, keys, ← Option.not_isSome_iff_eq_none, lookup_isSome_iff_mem]

theorem get?_insert_self (s : Keyed α) (key : String) (value : α) :
    (s.insert key value).get? key = some value := by
  rw [get?_insert, if_pos rfl]

private theorem get?_foldl_insert_pairs (pairs : List (String × α))
    (s : Keyed α) (key : String) :
    (pairs.foldl (fun s pair => s.insert pair.1 pair.2) s).get? key =
      (pairs.reverse.lookup key).or (s.get? key) := by
  induction pairs generalizing s with
  | nil => rfl
  | cons pair pairs ih =>
      obtain ⟨k, value⟩ := pair
      rw [List.foldl_cons, ih, get?_insert, List.reverse_cons,
        List.lookup_append]
      by_cases hkey : key = k
      · cases pairs.reverse.lookup key <;> simp [hkey]
      · have hne : (key == k) = false := beq_false_of_ne hkey
        cases pairs.reverse.lookup key <;> simp [List.lookup_cons, hkey, hne]

theorem get?_ofList (pairs : List (String × α)) (key : String) :
    (ofList pairs).get? key = pairs.reverse.lookup key := by
  rw [ofList, get?_foldl_insert_pairs, get?_empty, Option.or_none]

/-- The second collection has one more value, under a key of its own. -/
def Gains (s s' : Keyed α) (value : α) : Prop :=
  ∃ key, s.get? key = none ∧ s' = s.insert key value

theorem not_gains_self (s : Keyed α) (value : α) : ¬s.Gains s value := by
  rintro ⟨key, hunused, heq⟩
  have hstored := s.get?_insert_self key value
  rw [← heq, hunused] at hstored
  contradiction

/-- The draws go on until an identifier comes up that is not in use. -/
def Supplied (s : Keyed α) (word : String) (draws : List Tag) : Prop :=
  ∃ tag ∈ draws, s.get? (newId word tag) = none

theorem get?_freshId? {s : Keyed α} {word id : String} {draws : List Tag}
    (h : s.freshId? word draws = some id) : s.get? id = none := by
  simpa using List.find?_some h

theorem exists_freshId? {s : Keyed α} {word : String} {draws : List Tag}
    (h : s.Supplied word draws) : ∃ id, s.freshId? word draws = some id := by
  obtain ⟨tag, htag, hunused⟩ := h
  refine Option.isSome_iff_exists.mp (List.find?_isSome.mpr ?_)
  exact ⟨newId word tag, List.mem_map_of_mem htag, by simp [hunused]⟩

end Chartbook.Keyed
