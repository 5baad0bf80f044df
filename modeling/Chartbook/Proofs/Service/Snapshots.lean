import Chartbook.Proofs.Keyed
import Mathlib.Data.Finset.Card

/-!
# Snapshots

A keyed collection hands out what it holds, and what was handed out can be
looked at later.  Each call returns what the events before it tell: the value
that was stored last under an identifier, an identifier that was never stored,
the number of those that were, and snapshots as they were handed out.
-/

namespace Chartbook

/-! ## Identifiers -/

/-- The word, an underscore and six hexadecimal digits in lower case. -/
inductive IsIdentifier (word : String) : String → Prop
  | mk {digits : List Char} (hlength : digits.length = 6)
      (hdigits : ∀ c ∈ digits, c ∈ "0123456789abcdef".toList) :
      IsIdentifier word (String.ofList (word.toList ++ '_' :: digits))

private theorem mem_hexadecimal_iff {c : Char} :
    c ∈ "0123456789abcdef".toList ↔
      (Number.isDigit c || ('a' ≤ c && c ≤ 'f')) = true := by
  have hdigits : ("0123456789abcdef".toList.all fun c =>
      Number.isDigit c || ('a' ≤ c && c ≤ 'f')) = true := by
    decide
  refine ⟨List.all_eq_true.mp hdigits c, fun h => ?_⟩
  have hrange : (48 ≤ c.toNat ∧ c.toNat ≤ 57) ∨
      (97 ≤ c.toNat ∧ c.toNat ≤ 102) := by
    simpa [Number.isDigit, Char.le_def, UInt32.le_iff_toNat_le] using h
  have hmem : ∀ n ∈ List.range' 48 10 ++ List.range' 97 6,
      Char.ofNat n ∈ "0123456789abcdef".toList := by
    decide
  rw [← Char.ofNat_toNat c]
  refine hmem c.toNat ?_
  rw [List.mem_append, List.mem_range'_1, List.mem_range'_1]
  omega

private theorem isPrefixOf?_append (l rest : List Char) :
    l.isPrefixOf? (l ++ rest) = some rest := by
  induction l with
  | nil => rfl
  | cons c l ih => simp [List.isPrefixOf?, ih]

theorem isIdOf_iff {word id : String} :
    isIdOf word id = true ↔ IsIdentifier word id := by
  rw [isIdOf]
  constructor
  · intro h
    cases hdigits : (word.toList ++ ['_']).isPrefixOf? id.toList with
    | none =>
        rw [hdigits] at h
        cases h
    | some digits =>
        simp only [hdigits, Bool.and_eq_true, beq_iff_eq, List.all_eq_true]
          at h
        have hid := List.append_eq_of_isPrefixOf?_eq_some hdigits
        rw [← String.ofList_toList (s := id), ← hid, List.append_assoc]
        exact .mk h.1 fun c hc => mem_hexadecimal_iff.mpr (h.2 c hc)
  · rintro @⟨digits, hlength, hdigits⟩
    have hid : word.toList ++ '_' :: digits =
        (word.toList ++ ['_']) ++ digits := by simp
    rw [String.toList_ofList, hid, isPrefixOf?_append]
    simp only [hlength, Bool.and_eq_true, List.all_eq_true, true_and,
      beq_self_eq_true]
    exact fun c hc => mem_hexadecimal_iff.mp (hdigits c hc)

instance (word id : String) : Decidable (IsIdentifier word id) :=
  decidable_of_iff _ isIdOf_iff

theorem Json.mem_hexDigits {c : Char} {n : Nat} (h : c ∈ hexDigits n) :
    c ∈ "0123456789abcdef".toList := by
  have hdigit : ∀ d < 16, Nat.digitChar d ∈ "0123456789abcdef".toList := by
    decide
  rw [hexDigits] at h
  induction n using Nat.strongRecOn with
  | ind n ih =>
      rcases Nat.lt_or_ge n 16 with hlt | hge
      · rw [Nat.toDigits_of_lt_base hlt, List.mem_singleton] at h
        exact h ▸ hdigit n hlt
      · rw [Nat.toDigits_of_base_le (by decide) hge, List.mem_append] at h
        rcases h with h | h
        · exact ih (n / 16) (Nat.div_lt_self (by omega) (by decide)) h
        · rw [List.mem_singleton] at h
          exact h ▸ hdigit _ (Nat.mod_lt n (by decide))

private theorem isIdentifier_newId (word : String) (t : Tag) :
    IsIdentifier word (newId word t) := by
  have hlength : (Json.hexDigits t.val).length ≤ 6 :=
    (Nat.length_toDigits_le_iff (by decide) (by decide)).mpr t.isLt
  refine .mk ?_ fun c hc => ?_
  · rw [Tag.chars, List.length_append, List.length_replicate]
    omega
  · rcases List.mem_append.mp hc with hc | hc
    · rw [List.eq_of_mem_replicate hc]
      decide
    · exact Json.mem_hexDigits hc

namespace Keyed

variable {α : Type}

theorem insertNew?_eq_some {s s' : Keyed α} {word id : String}
    {draws : List Tag} {value : α}
    (h : s.insertNew? word draws value = some (id, s')) :
    s' = s.insert id value ∧ s.get? id = none ∧ IsIdentifier word id := by
  obtain ⟨id', hid, heq⟩ := Option.map_eq_some_iff.mp h
  cases heq
  obtain ⟨tag, -, rfl⟩ := List.mem_map.mp (List.mem_of_find?_eq_some hid)
  exact ⟨rfl, get?_freshId? hid, isIdentifier_newId word tag⟩

/-! ## Sessions -/

inductive Event (α : Type) where
  | put (id : String) (value : α)
  | get (id : String) (found : Option α)
  | insertNew (word id : String) (value : α)
  | len (n : Nat)
  | look (i : Nat) (value : Option α)

namespace Event

def snapshot? : Event α → Option α
  | put _ value => some value
  | get _ found => found
  | insertNew _ _ value => some value
  | len _ | look _ _ => none

def stored? : Event α → Option (String × α)
  | put id value => some (id, value)
  | insertNew _ id value => some (id, value)
  | get _ _ | len _ | look _ _ => none

end Event

structure Client (α : Type) where
  store : Keyed α := ∅
  snapshots : List α := []

inductive Step : Client α → Event α → Client α → Prop
  | put (c : Client α) (id : String) (value : α) :
      Step c (.put id value)
        ⟨c.store.insert id value, c.snapshots ++ [value]⟩
  | get (c : Client α) (id : String) :
      Step c (.get id (c.store.get? id))
        ⟨c.store, c.snapshots ++ (c.store.get? id).toList⟩
  | insertNew {c : Client α} {word id : String} {draws : List Tag} {value : α}
      {s : Keyed α}
      (h : c.store.insertNew? word draws value = some (id, s)) :
      Step c (.insertNew word id value) ⟨s, c.snapshots ++ [value]⟩
  | len (c : Client α) : Step c (.len c.store.size) c
  | look (c : Client α) (i : Nat) : Step c (.look i c.snapshots[i]?) c

/-- The events of the calls that were made on an empty collection, in order. -/
inductive Session : List (Event α) → Client α → Prop
  | start : Session [] {}
  | next {events : List (Event α)} {c c' : Client α} {e : Event α}
      (h : Session events c) (hstep : Step c e c') : Session (events ++ [e]) c'

/-! ## What the events tell -/

def storedIds (events : List (Event α)) : List String :=
  (events.filterMap Event.stored?).map Prod.fst

def latest (events : List (Event α)) (id : String) : Option α :=
  (events.filterMap Event.stored?).reverse.lookup id

def handedOut (events : List (Event α)) : List α :=
  events.filterMap Event.snapshot?

/-- The call returned what the events before it tell. -/
def Event.IsTold (before : List (Event α)) : Event α → Prop
  | put _ _ => True
  | get id found => found = latest before id
  | insertNew word id _ => IsIdentifier word id ∧ id ∉ storedIds before
  | len n => n = (storedIds before).toFinset.card
  | look i value => value = (handedOut before)[i]?

variable {events : List (Event α)} {c c' : Client α} {e : Event α}

theorem latest_eq_none_iff {id : String} :
    latest events id = none ↔ id ∉ storedIds events := by
  rw [latest, storedIds, ← Option.not_isSome_iff_eq_none,
    lookup_isSome_iff_mem, List.map_reverse, List.mem_reverse]

theorem latest_concat_of_stored {k : String} {v : α}
    (h : e.stored? = some (k, v)) (id : String) :
    latest (events ++ [e]) id =
      if id = k then some v else latest events id := by
  rw [latest, latest, List.filterMap_append, List.filterMap_cons_some h,
    List.filterMap_nil, List.reverse_concat, List.lookup_cons]
  by_cases hid : id = k
  · simp [hid]
  · have hne : (id == k) = false := beq_false_of_ne hid
    simp [hne, hid]

theorem latest_concat_of_none (h : e.stored? = none) (id : String) :
    latest (events ++ [e]) id = latest events id := by
  rw [latest, latest, List.filterMap_append, List.filterMap_cons_none h,
    List.filterMap_nil, List.append_nil]

private theorem handedOut_concat (events : List (Event α)) (e : Event α) :
    handedOut (events ++ [e]) = handedOut events ++ e.snapshot?.toList := by
  rw [handedOut, handedOut, List.filterMap_append]
  cases h : e.snapshot? <;> simp [h]

/-! ## From one call to a session -/

structure Records (events : List (Event α)) (c : Client α) : Prop where
  get? : ∀ id, c.store.get? id = latest events id
  snapshots : c.snapshots = handedOut events

theorem Records.size_eq (h : Records events c) :
    c.store.size = (storedIds events).toFinset.card := by
  have hkeys : c.store.keys.toFinset = (storedIds events).toFinset := by
    ext id
    rw [List.mem_toFinset, List.mem_toFinset, ← not_iff_not,
      ← get?_eq_none_iff, ← latest_eq_none_iff, h.get?]
  have hdistinct : c.store.keys.Nodup := c.store.distinct
  rw [← hkeys, List.toFinset_card_of_nodup hdistinct]
  exact (List.length_map ..).symm

theorem Records.isTold (h : Records events c) (hstep : Step c e c') :
    e.IsTold events := by
  cases hstep with
  | put => trivial
  | get id => exact h.get? id
  | insertNew hnew =>
      obtain ⟨-, hunused, hform⟩ := insertNew?_eq_some hnew
      rw [h.get?, latest_eq_none_iff] at hunused
      exact ⟨hform, hunused⟩
  | len => exact h.size_eq
  | look i => rw [h.snapshots]; rfl

theorem Records.next (h : Records events c) (hstep : Step c e c') :
    Records (events ++ [e]) c' := by
  constructor
  · intro id
    cases hstep with
    | put => rw [latest_concat_of_stored rfl, get?_insert, h.get?]
    | insertNew hnew =>
        obtain ⟨rfl, -, -⟩ := insertNew?_eq_some hnew
        rw [latest_concat_of_stored rfl, get?_insert, h.get?]
    | get | len | look => rw [latest_concat_of_none rfl, h.get?]
  · rw [handedOut_concat, ← h.snapshots]
    cases hstep with
    | put | get | insertNew => rfl
    | len | look => exact (List.append_nil _).symm

theorem Session.records (h : Session events c) : Records events c := by
  induction h with
  | start => exact ⟨fun _ => rfl, rfl⟩
  | next _ hstep ih => exact ih.next hstep

theorem Session.isTold (h : Session events c) {before after : List (Event α)}
    (heq : events = before ++ e :: after) : e.IsTold before := by
  induction h generalizing after with
  | start => simp at heq
  | next h hstep ih =>
      rcases List.eq_nil_or_concat after with rfl | ⟨rest, last, rfl⟩
      · obtain ⟨rfl, he⟩ := List.append_inj' heq rfl
        cases he
        exact h.records.isTold hstep
      · -- the event is not the last one, so it is told by a shorter session
        rw [List.concat_eq_append, ← List.cons_append,
          ← List.append_assoc] at heq
        exact ih (List.append_inj' heq rfl).1

/--
In a session that starts with nothing stored, every call returns what the events
before it tell.  A snapshot that a call hands out is read as the same value
whatever is called in between.  A new identifier is found as soon as one that is
not in use is drawn.
-/
theorem session_told (h : Session events c) :
    (∀ before e after, events = before ++ e :: after → e.IsTold before) ∧
    (∀ before e v between value after, e.snapshot? = some v →
      events = before ++ e ::
        (between ++ .look (handedOut before).length value :: after) →
      value = some v) ∧
    ∀ word draws value, c.store.Supplied word draws →
      ∃ id c', Step c (.insertNew word id value) c' := by
  refine ⟨fun before e after => h.isTold, ?_, fun word draws value hdraws => ?_⟩
  · intro before e v between value after he hevents
    have hlook : value =
        (handedOut (before ++ e :: between))[(handedOut before).length]? := by
      refine @Session.isTold _ _ _ (.look _ value) h _ after ?_
      rw [hevents, List.append_assoc, List.cons_append]
    rw [hlook, handedOut, List.filterMap_append, List.filterMap_cons_some he,
      ← handedOut, List.getElem?_append_right le_rfl, Nat.sub_self]
    rfl
  · obtain ⟨id, hid⟩ := exists_freshId? hdraws
    refine ⟨id, ⟨c.store.insert id value, c.snapshots ++ [value]⟩, ?_⟩
    exact @Step.insertNew _ c _ _ draws _ _ (by rw [insertNew?, hid]; rfl)

theorem session_told_taken :
    let events : List (Event Nat) := [
      .put "ds_000001" 1, .insertNew "ds" "ds_000002" 5, .put "ds_000001" 3,
      .look 0 (some 1), .get "ds_000001" (some 3), .len 2]
    (∃ c, Session events c) ∧ Event.IsTold (events.take 1) events[1] ∧
      Event.IsTold (events.take 5) events[5] := by
  intro events
  let c₁ : Client Nat := ⟨empty.insert "ds_000001" 1, [1]⟩
  have hid : c₁.store.freshId? "ds" [1, 1, 2] = some "ds_000002" := by
    decide +kernel
  have hnew : c₁.store.insertNew? "ds" [1, 1, 2] 5 =
      some ("ds_000002", c₁.store.insert "ds_000002" 5) := by
    rw [insertNew?, hid]
    rfl
  have hsession := ((((((Session.start.next (.put {} "ds_000001" 1)).next
    (.insertNew hnew)).next (.put _ "ds_000001" 3)).next (.look _ 0)).next
    (.get _ "ds_000001")).next (.len _))
  have hevents : Session events _ := hsession
  obtain ⟨htold, -⟩ := session_told hevents
  exact ⟨⟨_, hevents⟩, htold _ _ _ rfl, htold _ _ _ rfl⟩

end Keyed

end Chartbook
