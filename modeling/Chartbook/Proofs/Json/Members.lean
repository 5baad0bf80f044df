import Chartbook.Json.Merge
import Chartbook.Json.Record
import Chartbook.Proofs.Lookup

/-!
# Members of objects

What stands under a key after repeated members have been resolved and after one
object has been laid over another, and what the field of that name is then read
as.
-/

namespace Chartbook.Json

variable {members patch : List (String × Json)}

/-! ## The last of repeated members -/

/-- The value of the last member with a key, itself without repetitions. -/
def lastValue? (members : List (String × Json)) (key : String) : Option Json :=
  (members.reverse.lookup key).map lastMembers

theorem lookup_lastOfMembers (kept members : List (String × Json))
    (key : String) :
    (lastOfMembers kept members).lookup key =
      (lastValue? members key).or (kept.lookup key) := by
  induction members generalizing kept with
  | nil => rfl
  | cons m members ih =>
      obtain ⟨k, v⟩ := m
      rw [lastOfMembers, ih, lookup_putPair, lastValue?, lastValue?,
        List.reverse_cons, List.lookup_append]
      by_cases hkey : key = k
      · subst hkey
        cases members.reverse.lookup key <;> simp
      · have hne : (key == k) = false := by simpa using hkey
        cases members.reverse.lookup key <;> simp [hkey, hne, List.lookup_cons]

theorem nodup_lastOfMembers {kept : List (String × Json)}
    (h : (kept.map Prod.fst).Nodup) (members : List (String × Json)) :
    ((lastOfMembers kept members).map Prod.fst).Nodup := by
  induction members generalizing kept with
  | nil => exact h
  | cons m members ih =>
      obtain ⟨k, v⟩ := m
      exact ih (nodup_putPair k _ h)

theorem lastOfMembers_of_nodup {kept : List (String × Json)}
    (h : ((kept ++ members).map Prod.fst).Nodup)
    (hvalues : ∀ m ∈ members, lastMembers m.2 = m.2) :
    lastOfMembers kept members = kept ++ members := by
  induction members generalizing kept with
  | nil => simp [lastOfMembers]
  | cons m members ih =>
      obtain ⟨k, v⟩ := m
      simp only [List.forall_mem_cons] at hvalues
      have hkey : k ∉ kept.map Prod.fst := by
        intro hmem
        rw [List.map_append, List.nodup_append] at h
        exact h.2.2 k hmem k (by simp) rfl
      rw [List.append_cons] at h ⊢
      rw [lastOfMembers, hvalues.1, putPair_of_notMem hkey]
      exact ih h hvalues.2

/-! ## Keys in ascending order -/

/-- In every object of the value, at any depth, the keys ascend. -/
inductive IsAscending : Json → Prop
  | scalar {v : Json} (h : v.depth = 0) : IsAscending v
  | array {items : List Json} (hitems : ∀ v ∈ items, IsAscending v) :
      IsAscending (array items)
  | object {members : List (String × Json)}
      (hkeys : (members.map Prod.fst).Pairwise (· ≤ ·))
      (hvalues : ∀ m ∈ members, IsAscending m.2) :
      IsAscending (object members)

private theorem pairwise_mergeSort_keys (members : List (String × Json)) :
    ((members.mergeSort fun a b => a.1 ≤ b.1).map Prod.fst).Pairwise
      (· ≤ ·) := by
  refine List.pairwise_map.mpr
    ((List.pairwise_mergeSort ?_ ?_ members).imp of_decide_eq_true)
  · intro a b c hab hbc
    exact decide_eq_true
      (String.le_trans (of_decide_eq_true hab) (of_decide_eq_true hbc))
  · intro a b
    simpa using String.le_total a.1 b.1

mutual

theorem isAscending_ascending : ∀ v : Json, v.ascending.IsAscending
  | .null | .bool _ | .number _ | .text _ | .illFormed => .scalar rfl
  | .array items => by
      rw [ascending]
      exact .array (isAscending_ascendingItems items)
  | .object members => by
      rw [ascending]
      refine .object (pairwise_mergeSort_keys _) fun m hm => ?_
      exact isAscending_ascendingMembers members m (List.mem_mergeSort.mp hm)

private theorem isAscending_ascendingItems :
    ∀ items : List Json, ∀ v ∈ ascendingItems items, v.IsAscending
  | [] => nofun
  | v :: items => by
      rw [ascendingItems, List.forall_mem_cons]
      exact ⟨isAscending_ascending v, isAscending_ascendingItems items⟩

private theorem isAscending_ascendingMembers :
    ∀ members : List (String × Json),
      ∀ m ∈ ascendingMembers members, m.2.IsAscending
  | [] => nofun
  | (k, v) :: members => by
      rw [ascendingMembers, List.forall_mem_cons]
      exact ⟨isAscending_ascending v, isAscending_ascendingMembers members⟩

end

theorem isAscending_array_map {α : Type} (f : α → Json) (as : List α) :
    IsAscending (.array (as.map fun a => (f a).ascending)) := by
  refine .array fun v hv => ?_
  obtain ⟨a, -, rfl⟩ := List.mem_map.mp hv
  exact isAscending_ascending (f a)

/-! ## One object over another -/

theorem merge_of_not_object {base : Json} (h : ∀ members, base ≠ object members)
    (patch : Json) : merge base patch = patch := by
  cases patch with
  | object members =>
      cases base with
      | object kept => exact absurd rfl (h kept)
      | _ => rw [merge]; nofun
  | _ => rw [merge]; nofun

theorem nodup_mergeMembers {base : List (String × Json)}
    (h : (base.map Prod.fst).Nodup) (patch : List (String × Json)) :
    ((mergeMembers base patch).map Prod.fst).Nodup := by
  induction patch generalizing base with
  | nil => exact h
  | cons m patch ih =>
      obtain ⟨k, v⟩ := m
      exact ih (nodup_putPair k _ h)

theorem lookup_mergeMembers (base : List (String × Json))
    (hpatch : (patch.map Prod.fst).Nodup) (key : String) :
    (mergeMembers base patch).lookup key =
      match patch.lookup key with
      | some v => some (merge ((base.lookup key).getD null) v)
      | none => base.lookup key := by
  induction patch generalizing base with
  | nil => rfl
  | cons m patch ih =>
      obtain ⟨k, v⟩ := m
      obtain ⟨hk, hpatch⟩ := List.nodup_cons.mp hpatch
      rw [mergeMembers, ih _ hpatch, lookup_putPair]
      by_cases hkey : key = k
      · subst hkey
        rw [lookup_of_notMem hk]
        simp
      · have hne : (key == k) = false := by simpa using hkey
        simp [hkey, hne, List.lookup_cons]

/-! ## Fields -/

private theorem field?_of_nodup (h : (members.map Prod.fst).Nodup)
    (name : String) :
    field? members name = some (members.lookup name) := by
  induction members with
  | nil => rfl
  | cons m members ih =>
      obtain ⟨k, v⟩ := m
      obtain ⟨hk, h⟩ := List.nodup_cons.mp h
      by_cases hname : k = name
      · subst hname
        have hrest : valuesOf k members = [] := by
          rw [valuesOf, List.map_eq_nil_iff, List.filter_eq_nil_iff]
          rintro ⟨k', v'⟩ hmem hkey
          exact hk (by simpa using ⟨v', of_decide_eq_true hkey ▸ hmem⟩)
        rw [field?, valuesOf, List.filter_cons_of_pos (by simp), List.map_cons,
          ← valuesOf, hrest]
        simp
      · have hne : (name == k) = false := by simpa using Ne.symm hname
        rw [field?, valuesOf, List.filter_cons_of_neg (by simpa using hname),
          ← valuesOf, ← field?, ih h]
        simp [List.lookup_cons, hne]

theorem fields?_of_nodup (h : (members.map Prod.fst).Nodup)
    (names : List String) (least : Nat) :
    (object members).fields? names least =
      some (names.map fun name => members.lookup name) := by
  have hfield : field? members = fun name => some (members.lookup name) :=
    funext (field?_of_nodup h)
  rw [fields?, hfield]
  exact List.mapM_pure

theorem optional_optionalText (s : Option String) :
    optional text? (some (optionalText s)) = some s := by
  cases s <;> rfl

section Written

variable {α : Type} {read : Json → Option α} {write : α → Json}

theorem optional_written (h : ∀ a, read (write a) = some a)
    (hnull : ∀ a, write a ≠ .null) (a : Option α) :
    optional read (some ((a.map write).getD .null)) = some a := by
  cases a with
  | none => rfl
  | some a =>
      rw [Option.map_some, Option.getD_some, optional.eq_3 _ _ (hnull a), h]
      rfl

theorem list?_map {β : Type} {read : Json → Option β} {f : α → β} {l : List α}
    (h : ∀ a ∈ l, read (write a) = some (f a)) :
    list? read (.array (l.map write)) = some (l.map f) := by
  rw [list?]
  induction l with
  | nil => rfl
  | cons a l ih =>
      simp only [List.forall_mem_cons] at h
      rw [List.map_cons, List.mapM_cons, h.1, ih h.2]
      rfl

theorem list?_written (h : ∀ a, read (write a) = some a) (as : List α) :
    list? read (.array (as.map write)) = some as := by
  have hmap := list?_map (f := id) (l := as) fun a _ => h a
  rwa [List.map_id] at hmap

theorem list?_eq_none {items : List Json} {v : Json} (hv : v ∈ items)
    (h : read v = none) : list? read (.array items) = none := by
  rw [list?]
  induction items with
  | nil => contradiction
  | cons w items ih =>
      rw [List.mapM_cons]
      rcases List.mem_cons.mp hv with rfl | hv
      · rw [h]
        rfl
      · rw [ih hv]
        cases read w <;> rfl

end Written

/-! ## Members that may be left out -/

section Optional

variable {α : Type} (name : String) (f : α → Json) (a : Option α)

theorem lookup_toList_map (key : String) :
    (a.toList.map fun x => (name, f x)).lookup key =
      if key = name then a.map f else none := by
  cases a with
  | none => simp
  | some x =>
      by_cases hkey : key = name
      · simp [hkey]
      · have hne : (key == name) = false := by simpa using hkey
        simp [List.lookup_cons, hne, hkey]

theorem keys_toList_map_sublist :
    ((a.toList.map fun x => (name, f x)).map Prod.fst).Sublist [name] := by
  cases a <;> simp

end Optional

end Chartbook.Json
