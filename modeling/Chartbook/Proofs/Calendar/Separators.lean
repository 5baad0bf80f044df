import Chartbook.Calendar.Reading
import Chartbook.Proofs.Calendar.Pattern

/-!
# What has to stand in a text

A pattern reads a text from left to right and passes over nothing, so each of
its separators stands in the text as often as in the pattern, and a pattern with
a month's name reads only texts with letters.  Texts with a time of day have a
colon.
-/

namespace Chartbook

namespace Pattern

open Item

variable {p p' : Parts} {s rest : List Char} {item : Item} {items : List Item}
  {pattern : Pattern}

private theorem trimStart_suffix (s : List Char) : Text.trimStart s <:+ s :=
  List.dropWhile_suffix _

private theorem fraction?_suffix {n : Nat} (h : fraction? s = some (n, rest)) :
    rest <:+ s := by
  unfold fraction? at h
  split at h
  rename_i ds after hspan
  split at h
  · contradiction
  · cases h
    have hafter : s.dropWhile Number.isDigit = rest :=
      congrArg Prod.snd hspan
    exact hafter ▸ List.dropWhile_suffix _

theorem readItem_suffix (h : readItem p s item = some (p', rest)) :
    rest <:+ s := by
  cases item with
  | number c =>
      rw [readItem_number] at h
      obtain ⟨⟨n, s'⟩, hfield, heq⟩ := Option.map_eq_some_iff.mp h
      cases heq
      obtain ⟨piece, rfl, -⟩ := exists_isField_of_field? hfield
      exact List.suffix_append piece rest
  | literal c =>
      obtain ⟨rfl, -⟩ := readItem_literal_eq_some_iff.mp h
      exact List.suffix_cons c rest
  | gap =>
      cases h
      exact trimStart_suffix s
  | shortMonth =>
      obtain ⟨⟨n, ending⟩, -, heq⟩ := Option.map_eq_some_iff.mp h
      cases heq
      exact List.drop_suffix 3 s
  | longMonth =>
      obtain ⟨⟨n, ending⟩, -, heq⟩ := Option.map_eq_some_iff.mp h
      cases heq
      split
      · exact (List.drop_suffix _ _).trans (List.drop_suffix 3 s)
      · exact List.drop_suffix 3 s
  | fraction =>
      simp only [readItem] at h
      split at h
      · obtain ⟨⟨n, s'⟩, hread, heq⟩ := Option.map_eq_some_iff.mp h
        cases heq
        exact (fraction?_suffix hread).trans (List.suffix_cons _ _)
      · cases h
        exact List.suffix_refl s

/-! ## Separators -/

private theorem count_le_of_readItem (x : Char)
    (h : readItem p s item = some (p', rest)) :
    (if item = literal x then 1 else 0) + rest.count x ≤ s.count x := by
  split
  · rename_i heq
    subst heq
    obtain ⟨rfl, -⟩ := readItem_literal_eq_some_iff.mp h
    rw [List.count_cons_self]
    omega
  · rw [Nat.zero_add]
    exact (readItem_suffix h).sublist.count_le x

private theorem count_le_of_readItems (x : Char)
    (h : readItems p s items = some (p', rest)) :
    items.count (literal x) + rest.count x ≤ s.count x := by
  induction items generalizing p s with
  | nil =>
      cases h
      simp
  | cons item items ih =>
      rw [readItems] at h
      obtain ⟨⟨q, s'⟩, hitem, hitems⟩ := Option.bind_eq_some_iff.mp h
      have hfirst := count_le_of_readItem x hitem
      have hothers := ih hitems
      rw [List.count_cons]
      simp only [beq_iff_eq]
      omega

theorem parts?_eq_none_of_count {x : Char}
    (h : s.count x < pattern.count (literal x)) : pattern.parts? s = none := by
  rw [parts?]
  split
  · rename_i p hread
    have hle := count_le_of_readItems x hread
    simp at hle
    omega
  · rfl

theorem day?_eq_none_of_count {x : Char}
    (h : s.count x < pattern.count (literal x)) : pattern.day? s = none := by
  rw [day?, parts?_eq_none_of_count h]
  rfl

theorem timestamp?_eq_none_of_count {x : Char}
    (h : s.count x < pattern.count (literal x)) :
    pattern.timestamp? s = none := by
  rw [timestamp?, parts?_eq_none_of_count h]
  rfl

/-! ## Names of months -/

def namesMonth (pattern : Pattern) : Bool :=
  pattern.any fun item => item = shortMonth || item = longMonth

def InMonthNames (f : Char → Bool) : Prop :=
  ∀ name ∈ monthNames, name.1.toList.any f = true

private theorem exists_mem_of_monthNamed? {f : Char → Bool}
    (hf : InMonthNames f) {month : Nat × List Char}
    (h : monthNamed? s = some month) :
    ∃ c ∈ s, f c.toLower = true := by
  rw [monthNamed?] at h
  obtain ⟨i, hi, -⟩ := Option.map_eq_some_iff.mp h
  obtain ⟨hlt, hname, -⟩ := List.findIdx?_eq_some_iff_getElem.mp hi
  obtain ⟨c, hc, hkind⟩ := List.any_eq_true.mp (hf _ (List.getElem_mem hlt))
  rw [eq_of_beq hname, Text.asciiLower] at hc
  obtain ⟨x, hx, rfl⟩ := List.mem_map.mp hc
  exact ⟨x, List.mem_of_mem_take hx, hkind⟩

private theorem exists_mem_of_readItems {f : Char → Bool} (hf : InMonthNames f)
    (hmonth : namesMonth items = true)
    (h : readItems p s items = some (p', rest)) :
    ∃ c ∈ s, f c.toLower = true := by
  induction items generalizing p s with
  | nil => contradiction
  | cons item items ih =>
      rw [readItems] at h
      obtain ⟨⟨q, s'⟩, hitem, hitems⟩ := Option.bind_eq_some_iff.mp h
      rw [namesMonth, List.any_cons, Bool.or_eq_true] at hmonth
      rcases hmonth with hname | hmonth
      · have hshape : item = shortMonth ∨ item = longMonth := by
          simpa using hname
        rcases hshape with rfl | rfl
        · obtain ⟨month, hread, -⟩ := Option.map_eq_some_iff.mp hitem
          exact exists_mem_of_monthNamed? hf hread
        · obtain ⟨month, hread, -⟩ := Option.map_eq_some_iff.mp hitem
          exact exists_mem_of_monthNamed? hf hread
      · obtain ⟨c, hc, hkind⟩ := ih hmonth hitems
        exact ⟨c, (readItem_suffix hitem).subset hc, hkind⟩

theorem day?_eq_none_of_names {f : Char → Bool} (hf : InMonthNames f)
    (hmonth : pattern.namesMonth = true) (h : ∀ c ∈ s, f c.toLower = false) :
    pattern.day? s = none := by
  have hnone : pattern.parts? s = none := by
    rw [parts?]
    split
    · rename_i p hread
      obtain ⟨c, hc, hkind⟩ := exists_mem_of_readItems hf hmonth hread
      rw [h c hc] at hkind
      contradiction
    · rfl
  rw [day?, hnone]
  rfl

theorem day?_eq_none_of_no_letter (hmonth : pattern.namesMonth = true)
    (h : ∀ c ∈ s, c.isAlpha = false) : pattern.day? s = none := by
  have hletters : InMonthNames Char.isAlpha := by
    unfold InMonthNames
    decide
  refine day?_eq_none_of_names hletters hmonth fun c hc => ?_
  refine Bool.eq_false_iff.mpr fun hlower => ?_
  have halpha := h c hc
  rw [Number.isAlpha_of_toLower hlower] at halpha
  contradiction

end Pattern

/-! ## Times of day -/

namespace Instant

variable {s rest : List Char}

private theorem digits?_suffix {n value : Nat}
    (h : digits? n s = some (value, rest)) :
    rest <:+ s := by
  rw [digits?] at h
  split at h
  · cases h
    exact List.drop_suffix n s
  · contradiction

theorem char?_eq_some_iff {accepted : List Char} :
    char? accepted s = some rest ↔ ∃ c ∈ accepted, s = c :: rest := by
  cases s with
  | nil => simp [char?]
  | cons c s =>
      rw [char?]
      split
      · rename_i hc
        constructor
        · rintro ⟨⟩
          exact ⟨c, hc, rfl⟩
        · rintro ⟨x, -, heq⟩
          cases heq
          rfl
      · rename_i hc
        constructor
        · intro h
          contradiction
        · rintro ⟨x, hx, heq⟩
          cases heq
          contradiction

theorem mem_of_timestamp? {t : Timestamp} (h : timestamp? s = some t) :
    '-' ∈ s ∧ ':' ∈ s := by
  obtain ⟨⟨_, s₁⟩, h₁, h⟩ := Option.bind_eq_some_iff.mp h
  obtain ⟨s₂, h₂, h⟩ := Option.bind_eq_some_iff.mp h
  obtain ⟨⟨_, s₃⟩, h₃, h⟩ := Option.bind_eq_some_iff.mp h
  obtain ⟨s₄, h₄, h⟩ := Option.bind_eq_some_iff.mp h
  obtain ⟨⟨_, s₅⟩, h₅, h⟩ := Option.bind_eq_some_iff.mp h
  obtain ⟨s₆, h₆, h⟩ := Option.bind_eq_some_iff.mp h
  obtain ⟨⟨_, s₇⟩, h₇, h⟩ := Option.bind_eq_some_iff.mp h
  obtain ⟨s₈, h₈, -⟩ := Option.bind_eq_some_iff.mp h
  obtain ⟨dash, hdash, rfl⟩ := char?_eq_some_iff.mp h₂
  obtain rfl := List.mem_singleton.mp hdash
  obtain ⟨c₄, -, rfl⟩ := char?_eq_some_iff.mp h₄
  obtain ⟨c₆, -, rfl⟩ := char?_eq_some_iff.mp h₆
  obtain ⟨colon, hcolon, rfl⟩ := char?_eq_some_iff.mp h₈
  obtain rfl := List.mem_singleton.mp hcolon
  have hmem : ':' ∈ s₆ := (digits?_suffix h₇).subset (List.mem_cons_self ..)
  have hmem : ':' ∈ s₄ :=
    (digits?_suffix h₅).subset (List.mem_cons_of_mem _ hmem)
  have hmem : ':' ∈ s₂ :=
    (digits?_suffix h₃).subset (List.mem_cons_of_mem _ hmem)
  have hsubset := (digits?_suffix h₁).subset
  exact ⟨hsubset (List.mem_cons_self ..),
    hsubset (List.mem_cons_of_mem _ hmem)⟩

theorem timestamp?_eq_none_of_not_mem (h : '-' ∉ s ∨ ':' ∉ s) :
    timestamp? s = none := by
  refine Option.eq_none_iff_forall_ne_some.mpr fun t ht => ?_
  obtain ⟨hdash, hcolon⟩ := mem_of_timestamp? ht
  rcases h with h | h
  · exact h hdash
  · exact h hcolon

end Instant

namespace Timestamp

variable {s : List Char}

private theorem momentPatterns_colon :
    ∀ pattern ∈ momentPatterns, 0 < pattern.count (.literal ':') := by
  decide

/-- A text without a colon is read as a date, or else as a month. -/
theorem ofText?_of_no_colon (hne : s ≠ []) (htrim : Text.trim s = s)
    (hcolon : ':' ∉ s) : ofText? s = (ofDateText? s).or (ofMonthText? s) := by
  have hinstant : Instant.timestamp? s = none :=
    Instant.timestamp?_eq_none_of_not_mem (.inr hcolon)
  have hmoment :
      (momentPatterns.findSome? fun pattern => pattern.timestamp? s) =
        none := by
    refine List.findSome?_eq_none_iff.mpr fun pattern hpattern => ?_
    refine Pattern.timestamp?_eq_none_of_count (x := ':') ?_
    rw [List.count_eq_zero.mpr hcolon]
    exact momentPatterns_colon pattern hpattern
  rw [ofText?, htrim]
  simp only [hne, if_false, hinstant, hmoment, Option.none_or]

end Timestamp

end Chartbook
