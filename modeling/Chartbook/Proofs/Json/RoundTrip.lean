import Chartbook.Json.Reader
import Chartbook.Proofs.Json.Tokens

/-!
# Documents that read back

A value is read back from the text in which it is written, compact or indented.
Only what has no text of its own comes back as null: numbers that are not finite
and texts that are not well formed.  Other real numbers come back as what the
reader makes of their digits.
-/

namespace Chartbook.Json

/-! ## What a text keeps of a value -/

mutual

/-- The value with null for numbers that are not finite. -/
def written (reread : Float → Float) : Json → Json
  | number (.real x) =>
      if x.isFinite then number (.real (reread x)) else null
  | illFormed => null
  | array items => array (writtenItems reread items)
  | object members => object (writtenMembers reread members)
  | v => v

def writtenItems (reread : Float → Float) : List Json → List Json
  | [] => []
  | v :: vs => written reread v :: writtenItems reread vs

def writtenMembers (reread : Float → Float) :
    List (String × Json) → List (String × Json)
  | [] => []
  | (k, v) :: ms => (k, written reread v) :: writtenMembers reread ms

end

variable {reread : Float → Float}

theorem writtenItems_eq_map (vs : List Json) :
    writtenItems reread vs = vs.map (written reread) := by
  induction vs with
  | nil => rfl
  | cons v vs ih => rw [writtenItems, ih, List.map_cons]

theorem writtenMembers_eq_map (ms : List (String × Json)) :
    writtenMembers reread ms =
      ms.map fun m => (m.1, m.2.written reread) := by
  induction ms with
  | nil => rfl
  | cons m ms ih => rw [writtenMembers, ih, List.map_cons]

/-! ## Reading the tokens of a value -/

namespace Reader

variable {rounding : Rounding}

theorem run_cons (r : Reader) (t : Token) (ts : List Token) :
    run r (t :: ts) = (r.step t).bind fun r => r.run ts := by
  rw [run]
  cases r.step t <;> rfl

private theorem value_token (n : Number) (frames : List Frame) :
    value frames (n.token rounding) =
      put ((number n).written rounding.reread) frames := by
  cases n with
  | natural | negative => rfl
  | real x =>
      rw [Number.token, written]
      split <;> rfl

private theorem run_firstValue (v : Json) (frames : List Frame)
    (ts : List Token) :
    run ⟨frames, .firstValue⟩ (v.tokens rounding ++ ts) =
      run ⟨frames, .value⟩ (v.tokens rounding ++ ts) := by
  cases v with
  | null | bool | text | illFormed => rfl
  | number n =>
      cases n with
      | natural | negative => rfl
      | real x =>
          rw [tokens, Number.token]
          split <;> rfl
  | array items => cases items <;> rfl
  | object members =>
      cases members with
      | nil => rfl
      | cons m ms => rfl

mutual

/-- The tokens of a value are read as the value, whatever is still open. -/
theorem run_tokens (v : Json) (frames : List Frame) (ts : List Token) :
    run ⟨frames, .value⟩ (v.tokens rounding ++ ts) =
      (put (v.written rounding.reread) frames).bind fun r => r.run ts := by
  cases v with
  | null | bool b | text s | illFormed => exact run_cons _ _ ts
  | number n =>
      rw [← value_token]
      exact run_cons _ _ ts
  | array items =>
      cases items with
      | nil =>
          change run ⟨.array [] :: frames, .firstValue⟩
            (.closeArray :: ts) = _
          exact run_cons _ _ ts
      | cons v vs =>
          simp only [tokens, List.cons_append, List.append_assoc]
          change run ⟨.array [] :: frames, .firstValue⟩ _ = _
          rw [run_firstValue, run_tokens]
          exact run_tokensOfItems vs [v.written rounding.reread] frames ts
  | object members =>
      cases members with
      | nil =>
          change run ⟨.object [] false :: frames, .firstKey⟩
            (.closeObject :: ts) = _
          exact run_cons _ _ ts
      | cons m ms =>
          obtain ⟨k, v⟩ := m
          simp only [tokens, List.cons_append, List.append_assoc]
          change run ⟨.member (some k) [] false :: frames, .value⟩ _ = _
          rw [run_tokens]
          exact run_tokensOfMembers ms [(k, v.written rounding.reread)] frames
            ts

private theorem run_tokensOfItems (vs items : List Json) (frames : List Frame)
    (ts : List Token) :
    run ⟨.array items :: frames, .separator⟩ (tokensOfItems rounding vs ++ ts) =
      (put (.array (items.reverse ++ writtenItems rounding.reread vs))
        frames).bind fun r => r.run ts := by
  cases vs with
  | nil =>
      rw [writtenItems, List.append_nil]
      exact run_cons _ _ ts
  | cons v vs =>
      simp only [tokensOfItems, List.cons_append, List.append_assoc]
      change run ⟨.array items :: frames, .value⟩ _ = _
      rw [run_tokens]
      have hitems := run_tokensOfItems vs (v.written rounding.reread :: items)
        frames ts
      rw [List.reverse_cons, List.append_assoc] at hitems
      exact hitems

private theorem run_tokensOfMembers (ms members : List (String × Json))
    (frames : List Frame) (ts : List Token) :
    run ⟨.object members false :: frames, .separator⟩
        (tokensOfMembers rounding ms ++ ts) =
      (put (.object (members.reverse ++ writtenMembers rounding.reread ms))
        frames).bind fun r => r.run ts := by
  cases ms with
  | nil =>
      rw [writtenMembers, List.append_nil]
      exact run_cons _ _ ts
  | cons m ms =>
      obtain ⟨k, v⟩ := m
      simp only [tokensOfMembers, List.cons_append, List.append_assoc]
      change run ⟨.member (some k) members false :: frames, .value⟩ _ = _
      rw [run_tokens]
      have hmembers := run_tokensOfMembers ms
        ((k, v.written rounding.reread) :: members) frames ts
      rw [List.reverse_cons, List.append_assoc] at hmembers
      exact hmembers

end

end Reader

theorem ofTokens?_tokens (v : Json) (rounding : Rounding) :
    ofTokens? (v.tokens rounding) = some (v.written rounding.reread) := by
  have hrun := @Reader.run_tokens rounding v [] []
  rw [List.append_nil] at hrun
  rw [ofTokens?, hrun]
  rfl

/-! ## Reading documents -/

theorem ofChars?_compact {v : Json} (h : v.InRange) (rounding : Rounding) :
    ofChars? rounding v.compact = some (v.written rounding.reread) := by
  rw [ofChars?, tokens?_compact h]
  exact ofTokens?_tokens v rounding

theorem ofChars?_indented {v : Json} (h : v.InRange) (rounding : Rounding)
    (level : Nat) :
    ofChars? rounding (v.indented level) =
      some (v.written rounding.reread) := by
  rw [ofChars?, tokens?_indented h]
  exact ofTokens?_tokens v rounding

/-! ## Values that a text keeps as they are -/

theorem itemsInRange_iff {vs : List Json} :
    ItemsInRange vs ↔ ∀ v ∈ vs, v.InRange := by
  induction vs with
  | nil => simp [ItemsInRange]
  | cons v vs ih => rw [ItemsInRange, ih, List.forall_mem_cons]

theorem membersInRange_iff {ms : List (String × Json)} :
    MembersInRange ms ↔ ∀ m ∈ ms, m.2.InRange := by
  induction ms with
  | nil => simp [MembersInRange]
  | cons m ms ih => rw [MembersInRange, ih, List.forall_mem_cons]

theorem membersSound_iff {ms : List (String × Json)} :
    membersSound ms = true ↔ ∀ m ∈ ms, m.2.isSound = true := by
  induction ms with
  | nil => simp [membersSound]
  | cons m ms ih =>
      rw [membersSound, Bool.and_eq_true, ih, List.forall_mem_cons]

/-- A value that comes back as it is, whatever becomes of real numbers. -/
structure IsExact (v : Json) : Prop where
  inRange : v.InRange
  written_eq (reread : Float → Float) : v.written reread = v

theorem isExact_null : null.IsExact := ⟨trivial, fun _ => rfl⟩

theorem isExact_bool (b : Bool) : (bool b).IsExact := ⟨trivial, fun _ => rfl⟩

theorem isExact_text (s : String) : (text s).IsExact := ⟨trivial, fun _ => rfl⟩

theorem isExact_optionalText (s : Option String) :
    (optionalText s).IsExact := by
  cases s with
  | none => exact isExact_null
  | some s => exact isExact_text s

theorem isExact_natural {n : Nat} (h : n < 0x10000000000000000) :
    (natural n).IsExact :=
  ⟨h, fun _ => rfl⟩

theorem isExact_array {items : List Json} (h : ∀ v ∈ items, v.IsExact) :
    (array items).IsExact where
  inRange := itemsInRange_iff.mpr fun v hv => (h v hv).inRange
  written_eq reread := by
    rw [written, writtenItems_eq_map,
      List.map_congr_left fun v hv => (h v hv).written_eq reread, List.map_id']

theorem isExact_object {members : List (String × Json)}
    (h : ∀ m ∈ members, m.2.IsExact) : (object members).IsExact where
  inRange := membersInRange_iff.mpr fun m hm => (h m hm).inRange
  written_eq reread := by
    have hmembers := List.map_congr_left fun m hm =>
      congrArg (Prod.mk m.1) ((h m hm).written_eq reread)
    rw [written, writtenMembers_eq_map, hmembers]
    exact congrArg object (List.map_id members)

namespace IsExact

variable {v : Json} (h : v.IsExact) (rounding : Rounding)
include h

theorem ofChars?_compact : ofChars? rounding v.compact = some v := by
  rw [Json.ofChars?_compact h.inRange, h.written_eq]

theorem ofChars?_indented (level : Nat) :
    ofChars? rounding (v.indented level) = some v := by
  rw [Json.ofChars?_indented h.inRange, h.written_eq]

end IsExact

end Chartbook.Json
