import Chartbook.Calendar.Pattern
import Chartbook.Proofs.Number.Digits
import Chartbook.Proofs.Text.Blank

/-!
# What date patterns read

A field is white space and a row of digits that is no longer than the field is
wide; after a sign a year may have any number of digits.  A pattern of three
fields reads the texts in which such fields stand with the separator between
them, and it reads nothing else.
-/

namespace Chartbook

theorem Date.ofParts?_eq_some_iff {year : Int} {month day : Nat} {d : Date} :
    Date.ofParts? year month day = some d ↔
      d.year = year ∧ d.month = month ∧ d.day = day := by
  constructor
  · intro h
    rw [Date.ofParts?] at h
    split at h
    · cases h
      exact ⟨rfl, rfl, rfl⟩
    · contradiction
  · rintro ⟨rfl, rfl, rfl⟩
    exact dif_pos d.valid

namespace Pattern

open Item Component

variable {a b c : Component} {sep : Char} {p p' : Parts} {n : Int}
  {s rest piece ds : List Char}

/-! ## Rows of digits -/

abbrev EndsNumber (rest : List Char) : Prop :=
  ∀ c ∈ rest.head?, Number.isDigit c = false

structure IsNumeral (width : Nat) (ds : List Char) : Prop where
  ne_nil : ds ≠ []
  digits : ∀ c ∈ ds, Number.isDigit c = true
  length_le : ds.length ≤ width

instance (width : Nat) (ds : List Char) : Decidable (IsNumeral width ds) :=
  decidable_of_iff
    (ds ≠ [] ∧ ds.all Number.isDigit = true ∧ ds.length ≤ width)
    ⟨fun h => ⟨h.1, List.all_eq_true.mp h.2.1, h.2.2⟩,
      fun h => ⟨h.ne_nil, List.all_eq_true.mpr h.digits, h.length_le⟩⟩

theorem IsNumeral.length_pos {width : Nat} (h : IsNumeral width ds) :
    0 < ds.length :=
  List.length_pos_iff.mpr h.ne_nil

private theorem takeWhile_of_endsNumber (h : EndsNumber rest) :
    rest.takeWhile Number.isDigit = [] := by
  cases rest with
  | nil => rfl
  | cons c rest => exact List.takeWhile_cons_of_neg (by simp [h c rfl])

theorem EndsNumber.take (h : EndsNumber rest) (k : Nat) :
    EndsNumber (rest.take k) := by
  intro c hc
  cases k with
  | zero => simp at hc
  | succ k =>
      refine h c ?_
      simpa [List.head?_take] using hc

theorem number?_append {width : Nat} (h : IsNumeral width ds)
    (hrest : EndsNumber rest) :
    number? width (ds ++ rest) = some (Number.digitsValue ds, rest) := by
  have htaken : ((ds ++ rest).take width).takeWhile Number.isDigit = ds := by
    rw [List.take_append, List.take_of_length_le h.length_le,
      List.takeWhile_append_of_pos h.digits,
      takeWhile_of_endsNumber (hrest.take _), List.append_nil]
  rw [number?]
  simp only [htaken, h.ne_nil, if_false, List.drop_left]

theorem exists_numeral_of_number? {width value : Nat}
    (h : number? width s = some (value, rest)) :
    ∃ ds, s = ds ++ rest ∧ IsNumeral width ds ∧
      value = Number.digitsValue ds := by
  rw [number?] at h
  split at h
  · contradiction
  · rename_i hne
    cases h
    have hprefix : (s.take width).takeWhile Number.isDigit <+: s :=
      (List.takeWhile_prefix _).trans (List.take_prefix _ _)
    refine ⟨_, (List.prefix_iff_eq_append.mp hprefix).symm, ⟨hne, fun c hc =>
      List.mem_takeWhile_imp hc, ?_⟩, rfl⟩
    exact (List.takeWhile_prefix _).length_le.trans (List.length_take_le ..)

/-! ## Fields -/

def width (c : Component) : Nat := if c = year then 4 else 2

def valueOf : Component → Nat → Int
  | .shortYear, n => centuryOf n + n
  | _, n => n

/-- The texts that a field can be, each with the value that is read from it. -/
inductive IsField : Component → List Char → Int → Prop
  | short {c : Component} {blanks ds : List Char} (hc : c ≠ year)
      (hblanks : Text.AllBlank blanks) (hds : IsNumeral 2 ds) :
      IsField c (blanks ++ ds) (valueOf c (Number.digitsValue ds))
  | unsignedYear {blanks ds : List Char} (hblanks : Text.AllBlank blanks)
      (hds : IsNumeral 4 ds) :
      IsField year (blanks ++ ds) (Number.digitsValue ds)
  | positiveYear {blanks ds : List Char} (hblanks : Text.AllBlank blanks)
      (hds : IsNumeral ds.length ds) :
      IsField year (blanks ++ '+' :: ds) (Number.digitsValue ds)
  | negativeYear {blanks ds : List Char} (hblanks : Text.AllBlank blanks)
      (hds : IsNumeral ds.length ds) :
      IsField year (blanks ++ '-' :: ds) (-(Number.digitsValue ds : Int))

def field? (c : Component) (s : List Char) : Option (Int × List Char) :=
  if c = year then year? s
  else (number? 2 s).map fun (n, rest) => (valueOf c n, rest)

def Parts.set (p : Parts) : Component → Int → Parts
  | .year, n | .shortYear, n => { p with year := some n }
  | .month, n => { p with month := some n.toNat }
  | .day, n => { p with day := some n.toNat }
  | .hour, n => { p with hour := n.toNat }
  | .minute, n => { p with minute := n.toNat }
  | .second, n => { p with second := n.toNat }

theorem readComponent_eq (p : Parts) (s : List Char) (c : Component) :
    readComponent p s c =
      (field? c s).map fun (n, rest) => (p.set c n, rest) := by
  cases c <;>
    simp [readComponent, field?, Parts.set, valueOf, Function.comp_def]

private theorem trimStart_numeral {blanks : List Char} {width : Nat}
    (hblanks : Text.AllBlank blanks) (hds : IsNumeral width ds)
    (rest : List Char) :
    Text.trimStart (blanks ++ ds ++ rest) = ds ++ rest := by
  obtain ⟨x, xs, rfl⟩ := List.exists_cons_of_ne_nil hds.ne_nil
  rw [List.append_assoc, Text.trimStart_append hblanks, List.cons_append,
    Text.trimStart_cons (Number.isBlank_of_isDigit (hds.digits x (by simp)))]

private theorem year?_of_unsigned (hds : IsNumeral 4 ds)
    (hrest : EndsNumber rest) :
    year? (ds ++ rest) = some ((Number.digitsValue ds : Int), rest) := by
  have hread := number?_append hds hrest
  obtain ⟨x, xs, rfl⟩ := List.exists_cons_of_ne_nil hds.ne_nil
  have hx := hds.digits x (by simp)
  rw [year?]
  · rw [hread]
    rfl
  · rintro s heq
    cases heq
    contradiction
  · rintro s heq
    cases heq
    contradiction

theorem field?_of_isField (h : IsField c piece n) (hrest : EndsNumber rest) :
    field? c (Text.trimStart (piece ++ rest)) = some (n, rest) := by
  cases h with
  | short hc hblanks hds =>
      rw [trimStart_numeral hblanks hds, field?, if_neg hc,
        number?_append hds hrest]
      rfl
  | unsignedYear hblanks hds =>
      rw [trimStart_numeral hblanks hds, field?, if_pos rfl,
        year?_of_unsigned hds hrest]
  | @positiveYear blanks ds hblanks hds =>
      have hwidth : IsNumeral (ds ++ rest).length ds :=
        ⟨hds.ne_nil, hds.digits, by simp⟩
      rw [List.append_assoc, Text.trimStart_append hblanks, List.cons_append,
        Text.trimStart_cons (by decide), field?, if_pos rfl, year?,
        number?_append hwidth hrest]
      rfl
  | @negativeYear blanks ds hblanks hds =>
      have hwidth : IsNumeral (ds ++ rest).length ds :=
        ⟨hds.ne_nil, hds.digits, by simp⟩
      rw [List.append_assoc, Text.trimStart_append hblanks, List.cons_append,
        Text.trimStart_cons (by decide), field?, if_pos rfl, year?,
        number?_append hwidth hrest]
      rfl

private theorem exists_isField_of_year? {blanks : List Char}
    (hblanks : Text.AllBlank blanks) (h : year? s = some (n, rest)) :
    ∃ piece, blanks ++ s = piece ++ rest ∧ IsField year piece n := by
  unfold year? at h
  split at h
  · obtain ⟨⟨value, rest'⟩, hread, heq⟩ := Option.map_eq_some_iff.mp h
    cases heq
    obtain ⟨ds, rfl, hds, rfl⟩ := exists_numeral_of_number? hread
    exact ⟨blanks ++ '-' :: ds, by simp,
      .negativeYear hblanks ⟨hds.ne_nil, hds.digits, Nat.le_refl _⟩⟩
  · obtain ⟨⟨value, rest'⟩, hread, heq⟩ := Option.map_eq_some_iff.mp h
    cases heq
    obtain ⟨ds, rfl, hds, rfl⟩ := exists_numeral_of_number? hread
    exact ⟨blanks ++ '+' :: ds, by simp,
      .positiveYear hblanks ⟨hds.ne_nil, hds.digits, Nat.le_refl _⟩⟩
  · obtain ⟨⟨value, rest'⟩, hread, heq⟩ := Option.map_eq_some_iff.mp h
    cases heq
    obtain ⟨ds, rfl, hds, rfl⟩ := exists_numeral_of_number? hread
    exact ⟨blanks ++ ds, by simp, .unsignedYear hblanks hds⟩

theorem exists_isField_of_field?
    (h : field? c (Text.trimStart s) = some (n, rest)) :
    ∃ piece, s = piece ++ rest ∧ IsField c piece n := by
  have hblanks : Text.AllBlank (s.takeWhile Text.isBlank) :=
    fun x hx => List.mem_takeWhile_imp hx
  have hs : s.takeWhile Text.isBlank ++ Text.trimStart s = s :=
    List.takeWhile_append_dropWhile
  rw [field?] at h
  split at h
  · rename_i hc
    obtain ⟨piece, heq, hpiece⟩ := exists_isField_of_year? hblanks h
    exact ⟨piece, hs.symm.trans heq, hc ▸ hpiece⟩
  · rename_i hc
    obtain ⟨⟨value, rest'⟩, hread, heq⟩ := Option.map_eq_some_iff.mp h
    cases heq
    obtain ⟨ds, hrest, hds, rfl⟩ := exists_numeral_of_number? hread
    refine ⟨s.takeWhile Text.isBlank ++ ds, ?_, .short hc hblanks hds⟩
    rw [List.append_assoc, ← hrest, hs]

namespace IsField

theorem nonneg (h : IsField c piece n) (hc : c ≠ year) : 0 ≤ n := by
  cases h with
  | @short _ _ ds _ _ _ =>
      have hcentury : 0 ≤ centuryOf (Number.digitsValue ds) := by
        rw [centuryOf]
        split <;> decide
      cases c <;> simp only [valueOf] <;> omega
  | unsignedYear | positiveYear | negativeYear => contradiction

theorem isNumeral (h : IsField c piece n)
    (hdigits : ∀ x ∈ piece, Number.isDigit x = true) :
    IsNumeral (width c) piece ∧ n = valueOf c (Number.digitsValue piece) := by
  have hnil {blanks ds : List Char} (hblanks : Text.AllBlank blanks)
      (hdigits : ∀ x ∈ blanks ++ ds, Number.isDigit x = true) :
      blanks = [] := by
    refine List.eq_nil_iff_forall_not_mem.mpr fun x hx => ?_
    have hx' := Number.isBlank_of_isDigit (hdigits x (by simp [hx]))
    rw [hblanks x hx] at hx'
    contradiction
  cases h with
  | short hc hblanks hds =>
      rw [hnil hblanks hdigits, List.nil_append, width, if_neg hc]
      exact ⟨hds, rfl⟩
  | unsignedYear hblanks hds =>
      rw [hnil hblanks hdigits, List.nil_append]
      exact ⟨hds, rfl⟩
  | positiveYear hblanks hds =>
      have hsign := hdigits '+' (by simp)
      contradiction
  | negativeYear hblanks hds =>
      have hsign := hdigits '-' (by simp)
      contradiction

theorem of_isNumeral (h : IsNumeral (width c) ds) :
    IsField c ds (valueOf c (Number.digitsValue ds)) := by
  have hblanks : Text.AllBlank [] := fun _ hc => nomatch hc
  by_cases hc : c = year
  · subst hc
    exact .unsignedYear hblanks h
  · rw [width, if_neg hc] at h
    exact .short hc hblanks h

theorem digits_of_append (h : IsField c piece n) {x : Char}
    (hx : Number.isDigit x = true) (heq : piece ++ rest = x :: s) :
    ∀ y ∈ piece, Number.isDigit y = true := by
  have hnil {blanks after : List Char} (hblanks : Text.AllBlank blanks)
      (heq : blanks ++ after = x :: s) : blanks = [] := by
    refine List.eq_nil_iff_forall_not_mem.mpr fun y hy => ?_
    obtain ⟨z, zs, rfl⟩ := List.exists_cons_of_ne_nil (List.ne_nil_of_mem hy)
    obtain ⟨rfl, -⟩ := List.cons.inj heq
    have hz := hblanks z (List.mem_cons_self ..)
    rw [Number.isBlank_of_isDigit hx] at hz
    contradiction
  cases h with
  | short hc hblanks hds =>
      rw [List.append_assoc] at heq
      rw [hnil hblanks heq]
      exact hds.digits
  | unsignedYear hblanks hds =>
      rw [List.append_assoc] at heq
      rw [hnil hblanks heq]
      exact hds.digits
  | positiveYear hblanks hds =>
      rw [List.append_assoc] at heq
      rw [hnil hblanks heq] at heq
      cases heq
      contradiction
  | negativeYear hblanks hds =>
      rw [List.append_assoc] at heq
      rw [hnil hblanks heq] at heq
      cases heq
      contradiction

theorem not_mem (h : IsField c piece n) (hc : c ≠ year) {x : Char}
    (hdigit : Number.isDigit x = false) (hblank : Text.isBlank x = false) :
    x ∉ piece := by
  intro hx
  cases h with
  | @short _ blanks ds _ hblanks hds =>
      rcases List.mem_append.mp hx with hx | hx
      · rw [hblanks x hx] at hblank
        contradiction
      · rw [hds.digits x hx] at hdigit
        contradiction
  | unsignedYear | positiveYear | negativeYear => contradiction

end IsField

/-! ## Three fields -/

def threeFields (a b c : Component) (sep : Char) : Pattern :=
  [number a, literal sep, number b, literal sep, number c]

/-- The texts of three fields, with the values that are read. -/
inductive Spells (a b c : Component) (sep : Char) :
    List Char → Int → Int → Int → Prop
  | mk {s₁ s₂ s₃ : List Char} {u v w : Int} (first : IsField a s₁ u)
      (second : IsField b s₂ v) (third : IsField c s₃ w) :
      Spells a b c sep (s₁ ++ sep :: (s₂ ++ sep :: s₃)) u v w

theorem Spells.nonneg {u v w : Int} (h : Spells a b c sep s u v w) :
    (a ≠ year → 0 ≤ u) ∧ (b ≠ year → 0 ≤ v) ∧ (c ≠ year → 0 ≤ w) := by
  cases h with
  | mk first second third =>
      exact ⟨first.nonneg, second.nonneg, third.nonneg⟩

theorem readItem_number (p : Parts) (s : List Char) (c : Component) :
    readItem p s (number c) =
      (field? c (Text.trimStart s)).map fun (n, rest) => (p.set c n, rest) :=
  readComponent_eq ..

theorem endsNumber_nil : EndsNumber [] :=
  fun _ hc => nomatch hc

theorem endsNumber_cons (hsep : Number.isDigit sep = false)
    (s : List Char) : EndsNumber (sep :: s) := by
  intro c hc
  cases hc
  exact hsep

theorem readItems_field {items : List Item} (h : IsField c piece n)
    (hrest : EndsNumber rest) :
    readItems p (piece ++ rest) (number c :: items) =
      readItems (p.set c n) rest items := by
  rw [readItems, readItem_number, field?_of_isField h hrest]
  rfl

theorem readItems_literal {items : List Item} :
    readItems p (sep :: s) (literal sep :: items) = readItems p s items := by
  simp [readItems, readItem]

theorem readItems_gap_field {items : List Item} (h : IsField c piece n)
    (hrest : EndsNumber rest) :
    readItems p (piece ++ rest) (gap :: number c :: items) =
      readItems (p.set c n) rest items := by
  have htrim (s : List Char) : readItems p (Text.trimStart s)
      (number c :: items) = readItems p s (number c :: items) := by
    rw [readItems, readItems, readItem_number, readItem_number,
      Text.trimStart_trimStart]
  exact (htrim _).trans (readItems_field h hrest)

theorem readItems_threeFields {u v w : Int} {text : List Char}
    {items : List Item} (h : Spells a b c sep text u v w)
    (hsep : Number.isDigit sep = false) (hrest : EndsNumber rest) :
    readItems p (text ++ rest) (threeFields a b c sep ++ items) =
      readItems (((p.set a u).set b v).set c w) rest items := by
  cases h with
  | mk first second third =>
      simp only [threeFields, List.append_assoc, List.cons_append,
        List.nil_append]
      rw [readItems_field first (endsNumber_cons hsep _), readItems_literal,
        readItems_field second (endsNumber_cons hsep _), readItems_literal,
        readItems_field third hrest]

private theorem exists_of_readItems_number {items : List Item}
    (h : readItems p s (number c :: items) = some (p', rest)) :
    ∃ piece n s', s = piece ++ s' ∧ IsField c piece n ∧
      readItems (p.set c n) s' items = some (p', rest) := by
  rw [readItems, readItem_number] at h
  obtain ⟨⟨q, s'⟩, hitem, hitems⟩ := Option.bind_eq_some_iff.mp h
  obtain ⟨⟨n, s''⟩, hfield, heq⟩ := Option.map_eq_some_iff.mp hitem
  cases heq
  obtain ⟨piece, hs, hpiece⟩ := exists_isField_of_field? hfield
  exact ⟨piece, n, s', hs, hpiece, hitems⟩

theorem readItem_literal_eq_some_iff {q : Parts} :
    readItem p s (literal sep) = some (q, rest) ↔ s = sep :: rest ∧ q = p := by
  cases s with
  | nil => simp [readItem]
  | cons x s =>
      by_cases hx : x = sep
      · simp [readItem, hx, and_comm, eq_comm]
      · simp [readItem, hx]

private theorem exists_of_readItems_literal {items : List Item}
    (h : readItems p s (literal sep :: items) = some (p', rest)) :
    ∃ s', s = sep :: s' ∧ readItems p s' items = some (p', rest) := by
  rw [readItems] at h
  obtain ⟨⟨q, s'⟩, hitem, hitems⟩ := Option.bind_eq_some_iff.mp h
  obtain ⟨hs, rfl⟩ := readItem_literal_eq_some_iff.mp hitem
  exact ⟨s', hs, hitems⟩

private theorem exists_spells_of_readItems
    (h : readItems p s (threeFields a b c sep) = some (p', rest)) :
    ∃ text u v w, s = text ++ rest ∧ Spells a b c sep text u v w ∧
      p' = ((p.set a u).set b v).set c w := by
  obtain ⟨s₁, u, t₁, rfl, first, h₁⟩ := exists_of_readItems_number h
  obtain ⟨t₂, rfl, h₂⟩ := exists_of_readItems_literal h₁
  obtain ⟨s₂, v, t₃, rfl, second, h₃⟩ := exists_of_readItems_number h₂
  obtain ⟨t₄, rfl, h₄⟩ := exists_of_readItems_literal h₃
  obtain ⟨s₃, w, t₅, rfl, third, h₅⟩ := exists_of_readItems_number h₄
  cases h₅
  exact ⟨_, u, v, w, by simp, .mk first second third, rfl⟩

theorem parts?_threeFields_eq_some_iff (hsep : Number.isDigit sep = false) :
    (threeFields a b c sep).parts? s = some p ↔
      ∃ u v w, Spells a b c sep s u v w ∧
        p = ((({} : Parts).set a u).set b v).set c w := by
  rw [parts?]
  constructor
  · intro h
    split at h
    · rename_i q hread
      cases h
      obtain ⟨text, u, v, w, htext, hspells, heq⟩ :=
        exists_spells_of_readItems hread
      rw [List.append_nil] at htext
      exact ⟨u, v, w, htext ▸ hspells, heq⟩
    · contradiction
  · rintro ⟨u, v, w, hspells, rfl⟩
    have hread : readItems {} (s ++ []) (threeFields a b c sep ++ []) = _ :=
      readItems_threeFields hspells hsep endsNumber_nil
    rw [List.append_nil, List.append_nil] at hread
    rw [hread]
    rfl

/-! ## Dates of three fields -/

inductive IsOrder : Component → Component → Component → Prop
  | yearFirst : IsOrder year month day
  | dayFirst : IsOrder day month year
  | monthFirst : IsOrder month day year
  | dayFirstShort : IsOrder day month shortYear
  | monthFirstShort : IsOrder month day shortYear

def partOf (d : Date) : Component → Int
  | .year | .shortYear => d.year
  | .month => d.month
  | .day => d.day
  | _ => 0

variable {t : Timestamp} {d : Date}

theorem date?_eq_some_iff :
    p.date? = some d ↔
      p.year = some d.year ∧ p.month = some d.month ∧ p.day = some d.day := by
  simp only [Parts.date?, bind, Option.bind_eq_some_iff,
    Date.ofParts?_eq_some_iff]
  constructor
  · rintro ⟨_, hyear, _, hmonth, _, hday, rfl, rfl, rfl⟩
    exact ⟨hyear, hmonth, hday⟩
  · rintro ⟨hyear, hmonth, hday⟩
    exact ⟨_, hyear, _, hmonth, _, hday, rfl, rfl, rfl⟩

theorem date?_set_eq_some_iff (horder : IsOrder a b c) {u v w : Int}
    (hu : a ≠ year → 0 ≤ u) (hv : b ≠ year → 0 ≤ v) (hw : c ≠ year → 0 ≤ w) :
    (((({} : Parts).set a u).set b v).set c w).date? = some d ↔
      u = partOf d a ∧ v = partOf d b ∧ w = partOf d c := by
  rw [date?_eq_some_iff]
  cases horder <;>
    simp only [Parts.set, partOf, Option.some.injEq, ne_eq, reduceCtorEq,
      not_false_eq_true, forall_const] at hu hv hw ⊢ <;>
    omega

theorem day?_eq_some_iff {pattern : Pattern} :
    pattern.day? s = some t ↔
      ∃ p d, pattern.parts? s = some p ∧ p.date? = some d ∧
        Timestamp.ofDate d = t := by
  simp only [day?, Option.map_eq_some_iff, Option.bind_eq_some_iff]
  constructor
  · rintro ⟨d, ⟨p, hp, hd⟩, ht⟩
    exact ⟨p, d, hp, hd, ht⟩
  · rintro ⟨p, d, hp, hd, ht⟩
    exact ⟨d, ⟨p, hp, hd⟩, ht⟩

theorem day?_of_spells {u v w : Int} (h : Spells a b c sep s u v w)
    (hsep : Number.isDigit sep = false) :
    (threeFields a b c sep).day? s =
      (((({} : Parts).set a u).set b v).set c w).date?.map
        Timestamp.ofDate := by
  rw [day?, (parts?_threeFields_eq_some_iff hsep).mpr ⟨u, v, w, h, rfl⟩]
  rfl

theorem day?_eq_none_of_not_spells (hsep : Number.isDigit sep = false)
    (h : ∀ u v w, ¬Spells a b c sep s u v w) :
    (threeFields a b c sep).day? s = none := by
  refine Option.eq_none_iff_forall_ne_some.mpr fun t ht => ?_
  obtain ⟨p, d, hp, -⟩ := day?_eq_some_iff.mp ht
  obtain ⟨u, v, w, hspells, -⟩ := (parts?_threeFields_eq_some_iff hsep).mp hp
  exact h u v w hspells

/-- A date pattern reads the spellings of dates, in each order of the fields. -/
theorem threeFields_day?_eq_some_iff (horder : IsOrder a b c)
    (hsep : Number.isDigit sep = false) :
    (threeFields a b c sep).day? s = some t ↔
      ∃ d, Spells a b c sep s (partOf d a) (partOf d b) (partOf d c) ∧
        Timestamp.ofDate d = t := by
  rw [day?_eq_some_iff]
  constructor
  · rintro ⟨p, d, hp, hd, ht⟩
    obtain ⟨u, v, w, hspells, rfl⟩ :=
      (parts?_threeFields_eq_some_iff hsep).mp hp
    obtain ⟨hu, hv, hw⟩ := hspells.nonneg
    obtain ⟨rfl, rfl, rfl⟩ := (date?_set_eq_some_iff horder hu hv hw).mp hd
    exact ⟨d, hspells, ht⟩
  · rintro ⟨d, hspells, ht⟩
    obtain ⟨hu, hv, hw⟩ := hspells.nonneg
    exact ⟨_, d, (parts?_threeFields_eq_some_iff hsep).mpr
      ⟨_, _, _, hspells, rfl⟩,
      (date?_set_eq_some_iff horder hu hv hw).mpr ⟨rfl, rfl, rfl⟩, ht⟩

end Pattern

end Chartbook
