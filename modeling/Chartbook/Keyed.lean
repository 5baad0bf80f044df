/-!
# Keyed collections

Values under distinct texts, in the order in which the keys came.  A value put
under a present key takes the place of the old one and moves nothing.
-/

namespace Chartbook

/-- Puts a value under a key in a list of pairs: in the place of the first pair
with it, or at the end. -/
def putPair {α : Type} (key : String) (value : α) :
    List (String × α) → List (String × α)
  | [] => [(key, value)]
  | (k, v) :: rest =>
      if k = key then (key, value) :: rest
      else (k, v) :: putPair key value rest

theorem putPair_keys {α : Type} (key : String) (value : α)
    (l : List (String × α)) :
    (putPair key value l).map Prod.fst =
      if key ∈ l.map Prod.fst then l.map Prod.fst
      else l.map Prod.fst ++ [key] := by
  induction l with
  | nil => simp [putPair]
  | cons p rest ih =>
      obtain ⟨k, v⟩ := p
      by_cases h : k = key
      · simp [putPair, h]
      · simp only [putPair, h, if_false, List.map_cons, ih, List.mem_cons,
          Ne.symm h, false_or]
        split <;> simp

theorem putPair_of_notMem {α : Type} {key : String} {value : α}
    {l : List (String × α)} (h : key ∉ l.map Prod.fst) :
    putPair key value l = l ++ [(key, value)] := by
  induction l with
  | nil => rfl
  | cons p rest ih =>
      obtain ⟨k, v⟩ := p
      simp only [List.map_cons, List.mem_cons, not_or] at h
      rw [putPair, if_neg (Ne.symm h.1), ih h.2]
      rfl

theorem nodup_putPair {α : Type} (key : String) (value : α)
    {l : List (String × α)} (h : (l.map Prod.fst).Nodup) :
    ((putPair key value l).map Prod.fst).Nodup := by
  rw [putPair_keys]
  split
  · exact h
  · rename_i hkey
    refine List.nodup_append.2 ⟨h, by simp, fun a ha b hb hab => hkey ?_⟩
    simpa [← List.mem_singleton.1 hb, ← hab] using ha

theorem lookup_putPair {α : Type} (key : String) (value : α)
    (l : List (String × α)) (k : String) :
    (putPair key value l).lookup k =
      if k = key then some value else l.lookup k := by
  induction l with
  | nil =>
      by_cases h : k = key
      · simp [putPair, h]
      · have hb : (k == key) = false := by simpa using h
        simp [putPair, List.lookup_cons, hb, h]
  | cons p rest ih =>
      obtain ⟨k', v⟩ := p
      by_cases h : k' = key
      · subst h
        by_cases hk : k = k'
        · simp [putPair, hk]
        · have : (k == k') = false := by simpa using hk
          simp [putPair, List.lookup_cons, this, hk]
      · by_cases hk : k = k'
        · subst hk
          simp [putPair, h]
        · have hb : (k == k') = false := by simpa using hk
          simp [putPair, h, List.lookup_cons, hb, ih]

theorem eq_or_mem_of_mem_putPair {α : Type} {key : String} {value : α}
    {l : List (String × α)} {pair : String × α}
    (h : pair ∈ putPair key value l) : pair = (key, value) ∨ pair ∈ l := by
  induction l with
  | nil => simpa [putPair] using h
  | cons p rest ih =>
      obtain ⟨k, v⟩ := p
      rw [putPair] at h
      split at h
      · exact (List.mem_cons.1 h).imp_right (List.mem_cons_of_mem _)
      · rcases List.mem_cons.1 h with rfl | h
        · exact .inr (List.mem_cons_self ..)
        · exact (ih h).imp_right (List.mem_cons_of_mem _)

theorem putPair_of_lookup {α : Type} {key : String} {value : α}
    {l : List (String × α)} (h : l.lookup key = some value) :
    putPair key value l = l := by
  induction l with
  | nil => contradiction
  | cons p rest ih =>
      obtain ⟨k, v⟩ := p
      by_cases hk : k = key
      · subst hk
        simpa [putPair, eq_comm] using h
      · have hb : (key == k) = false := by simpa using Ne.symm hk
        rw [List.lookup_cons, hb] at h
        rw [putPair, if_neg hk, ih h]

structure Keyed (α : Type) where
  entries : List (String × α)
  distinct : (entries.map Prod.fst).Nodup

namespace Keyed

variable {α : Type}

def empty : Keyed α := ⟨[], by simp⟩

instance : EmptyCollection (Keyed α) := ⟨empty⟩

instance : Inhabited (Keyed α) := ⟨empty⟩

def get? (s : Keyed α) (key : String) : Option α := s.entries.lookup key

def keys (s : Keyed α) : List String := s.entries.map Prod.fst

def size (s : Keyed α) : Nat := s.entries.length

def insert (s : Keyed α) (key : String) (value : α) : Keyed α where
  entries := putPair key value s.entries
  distinct := nodup_putPair key value s.distinct

@[simp] theorem get?_insert (s : Keyed α) (key : String) (value : α)
    (k : String) :
    (s.insert key value).get? k = if k = key then some value else s.get? k :=
  lookup_putPair key value s.entries k

@[simp] theorem get?_empty (key : String) :
    (empty : Keyed α).get? key = none := rfl

def ofList (pairs : List (String × α)) : Keyed α :=
  pairs.foldl (fun s p => s.insert p.1 p.2) empty

def sorted (s : Keyed α) : List (String × α) :=
  s.entries.mergeSort fun a b => a.1 ≤ b.1

end Keyed

end Chartbook
