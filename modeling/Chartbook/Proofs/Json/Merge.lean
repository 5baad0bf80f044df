import Chartbook.Proofs.Json.Members

/-!
# Values laid over one another

Along a path of keys a patch decides as far as it goes: where it ends at a value
that is no object, that value stands, and what it does not reach stays as it
was.  So a second merge of the same patch finds everything in place.
-/

namespace Chartbook.Json

variable {members kept : List (String × Json)} {base patch v : Json}
  {key : String} {path : List String}

/-! ## Keys without repetitions -/

/-- No object in the value, at any depth, has one key twice. -/
inductive HasDistinctKeys : Json → Prop
  | scalar {v : Json} (h : v.depth = 0) : HasDistinctKeys v
  | array {items : List Json} (hitems : ∀ v ∈ items, HasDistinctKeys v) :
      HasDistinctKeys (array items)
  | object {members : List (String × Json)}
      (hkeys : (members.map Prod.fst).Nodup)
      (hvalues : ∀ m ∈ members, HasDistinctKeys m.2) :
      HasDistinctKeys (object members)

mutual

theorem hasDistinctKeys_lastMembers :
    ∀ v : Json, v.lastMembers.HasDistinctKeys
  | .null | .bool _ | .number _ | .text _ | .illFormed => .scalar rfl
  | .array items => by
      rw [lastMembers]
      exact .array (hasDistinctKeys_lastOfItems items)
  | .object members => by
      rw [lastMembers]
      exact .object (@nodup_lastOfMembers [] List.nodup_nil members)
        (hasDistinctKeys_lastOfMembers members [] nofun)

private theorem hasDistinctKeys_lastOfItems :
    ∀ items : List Json, ∀ v ∈ lastOfItems items, v.HasDistinctKeys
  | [] => nofun
  | v :: items => by
      rw [lastOfItems, List.forall_mem_cons]
      exact ⟨hasDistinctKeys_lastMembers v, hasDistinctKeys_lastOfItems items⟩

private theorem hasDistinctKeys_lastOfMembers :
    ∀ (members kept : List (String × Json)),
      (∀ m ∈ kept, m.2.HasDistinctKeys) →
        ∀ m ∈ lastOfMembers kept members, m.2.HasDistinctKeys
  | [], _, hkept => hkept
  | (k, v) :: members, kept, hkept => by
      rw [lastOfMembers]
      refine hasDistinctKeys_lastOfMembers members _ fun m hm => ?_
      rcases eq_or_mem_of_mem_putPair hm with rfl | hm
      · exact hasDistinctKeys_lastMembers v
      · exact hkept m hm

end

def membersOf : Json → List (String × Json)
  | object members => members
  | _ => []

theorem HasDistinctKeys.membersOf (h : v.HasDistinctKeys) :
    (v.membersOf.map Prod.fst).Nodup ∧
      ∀ m ∈ v.membersOf, m.2.HasDistinctKeys := by
  cases h with
  | scalar h =>
      cases v with
      | object members => simp [depth] at h
      | _ => exact ⟨List.nodup_nil, nofun⟩
  | array => exact ⟨List.nodup_nil, nofun⟩
  | object hkeys hvalues => exact ⟨hkeys, hvalues⟩

theorem HasDistinctKeys.of_object (h : HasDistinctKeys (.object members)) :
    (members.map Prod.fst).Nodup ∧ ∀ m ∈ members, m.2.HasDistinctKeys :=
  h.membersOf

theorem HasDistinctKeys.lookup (h : v.HasDistinctKeys) (key : String) :
    ((v.membersOf.lookup key).getD null).HasDistinctKeys := by
  cases hlookup : v.membersOf.lookup key with
  | none => exact .scalar rfl
  | some w =>
      obtain ⟨before, after, hmembers, -⟩ := List.lookup_eq_some_iff.mp hlookup
      exact h.membersOf.2 (key, w) (by simp [hmembers])

/-! ## One object over another -/

private theorem merge_null (v : Json) : merge null v = v :=
  merge_of_not_object (fun _ => Json.noConfusion) v

theorem merge_of_patch_not_object (h : ∀ members, patch ≠ object members)
    (base : Json) : merge base patch = patch := by
  cases patch with
  | object members => exact absurd rfl (h members)
  | _ => rw [merge]; exact fun _ => Json.noConfusion

theorem not_object_of_depth (h : v.depth = 0) (members : List (String × Json)) :
    v ≠ object members := by
  rintro rfl
  simp [depth] at h

private theorem mergeMembers_of_nodup
    (h : ((kept ++ members).map Prod.fst).Nodup) :
    mergeMembers kept members = kept ++ members := by
  induction members generalizing kept with
  | nil => simp [mergeMembers]
  | cons m members ih =>
      obtain ⟨k, v⟩ := m
      have hkey : k ∉ kept.map Prod.fst := by
        intro hmem
        rw [List.map_append, List.nodup_append] at h
        exact h.2.2 k hmem k (by simp) rfl
      rw [List.append_cons] at h ⊢
      rw [mergeMembers, lookup_of_notMem hkey, Option.getD_none, merge_null,
        putPair_of_notMem hkey]
      exact ih h

theorem merge_object (hkeys : (members.map Prod.fst).Nodup) (base : Json) :
    merge base (object members) =
      object (mergeMembers base.membersOf members) := by
  cases base with
  | object kept => rw [merge, membersOf]
  | _ =>
      rw [merge_of_not_object fun _ => Json.noConfusion, membersOf,
        mergeMembers_of_nodup (by simpa using hkeys), List.nil_append]
      exact fun _ => Json.noConfusion

theorem HasDistinctKeys.merge (h : patch.HasDistinctKeys)
    (hbase : base.HasDistinctKeys) : (merge base patch).HasDistinctKeys := by
  induction h generalizing base with
  | scalar h =>
      rw [merge_of_patch_not_object (not_object_of_depth h)]
      exact .scalar h
  | @array items hitems =>
      rw [@merge_of_patch_not_object (.array items) nofun]
      exact .array hitems
  | @object members hkeys hvalues ih =>
      rw [merge_object hkeys]
      have hmerged := nodup_mergeMembers hbase.membersOf.1 members
      refine .object hmerged ?_
      rintro ⟨k, v⟩ hm
      have hlookup := (lookup_eq_some_iff_mem hmerged).mpr hm
      rw [lookup_mergeMembers _ hkeys] at hlookup
      split at hlookup
      · rename_i w hw
        cases hlookup
        exact ih _ ((lookup_eq_some_iff_mem hkeys).mp hw) (hbase.lookup k)
      · exact hbase.membersOf.2 _
          ((lookup_eq_some_iff_mem hbase.membersOf.1).mp hlookup)

/-! ## A second merge -/

private theorem mergeMembers_of_absorbed
    (h : ∀ m ∈ members, ∃ w, kept.lookup m.1 = some w ∧ merge w m.2 = w) :
    mergeMembers kept members = kept := by
  induction members with
  | nil => rfl
  | cons m members ih =>
      obtain ⟨k, v⟩ := m
      obtain ⟨⟨w, hlookup, habsorbed⟩, hrest⟩ := List.forall_mem_cons.mp h
      rw [mergeMembers, hlookup, Option.getD_some, habsorbed,
        putPair_of_lookup hlookup, ih hrest]

private theorem absorbed_of_mergeMembers (hkeys : (members.map Prod.fst).Nodup)
    (ih : ∀ m ∈ members, ∀ base, merge (merge base m.2) m.2 = merge base m.2)
    (kept : List (String × Json)) :
    ∀ m ∈ members, ∃ w, (mergeMembers kept members).lookup m.1 = some w ∧
      merge w m.2 = w := by
  rintro ⟨k, v⟩ hm
  refine ⟨merge ((kept.lookup k).getD null) v, ?_, ih _ hm _⟩
  rw [lookup_mergeMembers kept hkeys,
    (lookup_eq_some_iff_mem hkeys).mpr hm]

theorem merge_merge (h : patch.HasDistinctKeys) (base : Json) :
    merge (merge base patch) patch = merge base patch := by
  -- a member of the patch meets any value, also one that was not there before
  induction h generalizing base with
  | scalar h =>
      simp only [merge_of_patch_not_object (not_object_of_depth h)]
  | @array items hitems =>
      simp only [@merge_of_patch_not_object (array items) nofun]
  | object hkeys hvalues ih =>
      rw [merge_object hkeys, merge_object hkeys, membersOf,
        mergeMembers_of_absorbed (absorbed_of_mergeMembers hkeys ih _)]

/-! ## Paths -/

def at? : Json → List String → Option Json
  | v, [] => some v
  | v, key :: path => (v.membersOf.lookup key).bind (·.at? path)

private theorem getD_at?_cons (v : Json) (key : String) (path : List String) :
    (v.at? (key :: path)).getD null =
      (((v.membersOf.lookup key).getD null).at? path).getD null := by
  rw [at?]
  cases v.membersOf.lookup key with
  | some w => rfl
  | none => cases path <;> rfl

private theorem at?_cons_of_ne_nil (h : path ≠ []) (v : Json) (key : String) :
    v.at? (key :: path) = ((v.membersOf.lookup key).getD null).at? path := by
  rw [at?]
  cases v.membersOf.lookup key with
  | some w => rfl
  | none =>
      cases path with
      | nil => contradiction
      | cons key path => rfl

theorem at?_merge_cons (hkeys : (members.map Prod.fst).Nodup) (base : Json)
    (key : String) (path : List String) :
    (merge base (object members)).at? (key :: path) =
      match members.lookup key with
      | some v => (merge ((base.membersOf.lookup key).getD null) v).at? path
      | none => base.at? (key :: path) := by
  rw [merge_object hkeys, at?, membersOf, lookup_mergeMembers _ hkeys]
  cases members.lookup key <;> rfl

private theorem at?_merge_of_some (h : patch.HasDistinctKeys) (base : Json)
    (hpath : patch.at? path = some v) :
    (merge base patch).at? path =
      some (merge ((base.at? path).getD null) v) := by
  induction path generalizing base patch with
  | nil =>
      cases hpath
      rfl
  | cons key path ih =>
      obtain ⟨w, hw, hrest⟩ := Option.bind_eq_some_iff.mp hpath
      cases patch with
      | object members =>
          obtain ⟨hkeys, hvalues⟩ := h.of_object
          rw [membersOf] at hw
          rw [at?_merge_cons hkeys, hw, getD_at?_cons]
          exact ih (hvalues _ ((lookup_eq_some_iff_mem hkeys).mp hw)) _ hrest
      | _ => contradiction

private theorem at?_merge_of_none (h : patch.HasDistinctKeys) (base : Json)
    (hpath : patch.at? path = none)
    (hshared : ∀ start v, start <+: path → patch.at? start = some v →
      ∃ members, v = object members) :
    (merge base patch).at? path = base.at? path := by
  induction path generalizing base patch with
  | nil => contradiction
  | cons key path ih =>
      obtain ⟨members, rfl⟩ := hshared [] patch (List.nil_prefix ..) rfl
      obtain ⟨hkeys, hvalues⟩ := h.of_object
      rw [at?_merge_cons hkeys]
      cases hlookup : members.lookup key with
      | none => rfl
      | some w =>
          have hstep (start : List String) :
              (object members).at? (key :: start) = w.at? start := by
            rw [at?, membersOf, hlookup, Option.bind_some]
          rw [hstep] at hpath
          have hne : path ≠ [] := by
            rintro rfl
            contradiction
          rw [at?_cons_of_ne_nil hne]
          refine ih (hvalues _ ((lookup_eq_some_iff_mem hkeys).mp hlookup)) _
            hpath fun start v hstart hv => ?_
          exact hshared (key :: start) v
            (List.cons_prefix_cons.mpr ⟨rfl, hstart⟩) ((hstep start).trans hv)

/--
A second merge of a patch changes nothing, and neither does the empty object.  A
path that is not in the patch leads where it led, if the patch has objects as
far as it shares the path; a path that ends in the patch at a value that is no
object leads to that value.  Merging repeats no key.
-/
theorem merge_layered (h : patch.HasDistinctKeys) (base : Json) :
    merge (merge base patch) patch = merge base patch ∧
    (∀ members, merge (object members) (object []) = object members) ∧
    (∀ path, patch.at? path = none →
      (∀ start v, start <+: path → patch.at? start = some v →
        ∃ members, v = object members) →
      (merge base patch).at? path = base.at? path) ∧
    (∀ path v, patch.at? path = some v → (∀ members, v ≠ object members) →
      (merge base patch).at? path = some v) ∧
    (base.HasDistinctKeys → (merge base patch).HasDistinctKeys) := by
  refine ⟨merge_merge h base, fun members => ?_,
    fun path => at?_merge_of_none h base, fun path v hpath hv => ?_, h.merge⟩
  · rw [merge, mergeMembers]
  · rw [at?_merge_of_some h base hpath, merge_of_patch_not_object hv]

theorem merge_layered_nested :
    let base : Json := .object [
      ("a", .object [("x", .natural 1), ("y", .array [.null])]),
      ("b", .text "kept")]
    let patch : Json := .object [
      ("c", .bool true), ("a", .object [("y", .object [("z", .null)])])]
    patch.HasDistinctKeys ∧
      (merge base patch).at? ["a", "x"] = some (.natural 1) ∧
      (merge base patch).at? ["a", "y", "z"] = some .null ∧
      merge (merge base patch) patch = merge base patch := by
  intro base patch
  have hpatch : patch.HasDistinctKeys := hasDistinctKeys_lastMembers patch
  obtain ⟨htwice, -, hkept, hset, -⟩ := merge_layered hpatch base
  refine ⟨hpatch, ?_, hset ["a", "y", "z"] .null rfl nofun, htwice⟩
  refine hkept ["a", "x"] rfl fun start v hstart hv => ?_
  simp only [List.prefix_cons_iff, List.prefix_nil] at hstart
  obtain rfl | ⟨_, rfl, rfl | ⟨_, rfl, rfl⟩⟩ := hstart
  · cases hv
    exact ⟨_, rfl⟩
  · cases hv
    exact ⟨_, rfl⟩
  · contradiction

end Chartbook.Json
