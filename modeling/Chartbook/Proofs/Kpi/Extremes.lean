import Chartbook.Proofs.Dataset.Normalization
import Chartbook.Proofs.Kpi.Calls
import Chartbook.Proofs.Number.Order

/-!
# Least and greatest values

A fold that keeps the lower of two numbers ends with the lowest one.  Which one
that is does not depend on the order of the numbers, unless both zeros are among
them, and missing cells are no numbers.  So a column may be reordered, and
missing cells may be put in and left out, without a change of its least value,
its greatest value and its count.
-/

namespace Chartbook

/-! ## Rearranged rows -/

/-- The second list has the members of the first one in any order; those that
satisfy `p` may have been put in or left out. -/
inductive IsRearranged {α : Type} (p : α → Prop) : List α → List α → Prop
  | reordered {l l' : List α} (h : l.Perm l') : IsRearranged p l l'
  | inserted {l l' : List α} (h : IsPadded p l l') : IsRearranged p l l'
  | removed {l l' : List α} (h : IsPadded p l' l) : IsRearranged p l l'
  | trans {l l' l'' : List α} (h : IsRearranged p l l')
      (h' : IsRearranged p l' l'') : IsRearranged p l l''

theorem IsRearranged.perm_filterMap {α β : Type} {p : α → Prop}
    {l l' : List α} (h : IsRearranged p l l') {f : α → Option β}
    (hf : ∀ a, p a → f a = none) :
    (l.filterMap f).Perm (l'.filterMap f) := by
  induction h with
  | reordered h => exact h.filterMap f
  | inserted h => rw [h.filterMap_eq hf]
  | removed h => rw [h.filterMap_eq hf]
  | trans _ _ ih ih' => exact ih.trans ih'

/-- The rows of a column in another order, with missing values put in or left
out anywhere; a cell that was left as it is counts as missing if it has no
number. -/
inductive Values.Rearranges : Values → Values → Prop
  | numbers {v w : List (Option Float)} (h : IsRearranged (· = none) v w) :
      Rearranges (.numbers v) (.numbers w)
  | dates {v w : List (Option Timestamp)} (h : IsRearranged (· = none) v w) :
      Rearranges (.dates v) (.dates w)
  | texts {cells cells' : List Cell}
      (h : IsRearranged (fun c => c.plainNumber? = none) cells cells') :
      Rearranges (.texts cells) (.texts cells')

theorem Values.Rearranges.perm {values values' : Values}
    (h : values.Rearranges values') :
    (values.numeric.filterMap id).Perm (values'.numeric.filterMap id) := by
  cases h with
  | numbers h => exact h.perm_filterMap fun _ => id
  | dates h =>
      simp only [numeric, List.filterMap_map]
      exact h.perm_filterMap fun _ _ => rfl
  | texts h =>
      simp only [numeric, List.filterMap_map]
      exact h.perm_filterMap fun _ => id

namespace KpiFunction

/-! ## The lowest of numbers -/

structure IsLowest (key : Float → Int) (xs : List Float)
    (x : Float) : Prop where
  mem : x ∈ xs
  le : ∀ y ∈ xs, key x ≤ key y

def ChoosesLow (key : Float → Int) (choose : Float → Float → Float) : Prop :=
  ∀ x y : Float, x.isNaN = false → y.isNaN = false →
    IsLowest key [x, y] (choose x y)

variable {key : Float → Int} {choose : Float → Float → Float}
  {x y : Float} {xs ys : List Float}

theorem choosesLow_ite {p : Float → Float → Prop} [∀ x y, Decidable (p x y)]
    (hp : ∀ x y : Float, x.isNaN = false → y.isNaN = false →
      (p x y ↔ key y < key x)) :
    ChoosesLow key fun x y => if p x y then y else x := by
  intro x y hx hy
  dsimp only
  split
  · rename_i hlt
    rw [hp x y hx hy] at hlt
    exact ⟨by simp, by simp [hlt.le]⟩
  · rename_i hlt
    rw [hp x y hx hy, not_lt] at hlt
    exact ⟨by simp, by simp [hlt]⟩

theorem choosesLow_lesser : ChoosesLow Number.signedMagnitude lesser :=
  choosesLow_ite fun _ _ hx hy => Number.lt_iff_signedMagnitude_lt hy hx

theorem choosesLow_greater :
    ChoosesLow (fun x => -Number.signedMagnitude x) greater :=
  choosesLow_ite fun _ _ hx hy =>
    (Number.lt_iff_signedMagnitude_lt hx hy).trans neg_lt_neg_iff.symm

theorem IsLowest.of_pair {z : Float} (hpair : IsLowest key [x, y] z)
    {lowest : Float} (h : IsLowest key (z :: xs) lowest) :
    IsLowest key (x :: y :: xs) lowest := by
  obtain ⟨hmem, hle⟩ := hpair
  obtain ⟨hlowest, hlow⟩ := h
  simp only [List.forall_mem_cons] at hle hlow
  constructor
  · rcases List.mem_cons.mp hlowest with rfl | hrest
    · exact List.mem_append_left xs hmem
    · exact List.mem_append_right [x, y] hrest
  · simp only [List.forall_mem_cons]
    exact ⟨hlow.1.trans hle.1, hlow.1.trans hle.2.1, hlow.2⟩

theorem ChoosesLow.isLowest_foldl (h : ChoosesLow key choose)
    (hnumbers : ∀ y ∈ x :: xs, y.isNaN = false) :
    IsLowest key (x :: xs) (xs.foldl choose x) := by
  induction xs generalizing x with
  | nil => exact ⟨List.mem_singleton_self x, by simp⟩
  | cons y xs ih =>
      simp only [List.forall_mem_cons] at hnumbers
      obtain ⟨hx, hy, hxs⟩ := hnumbers
      have hpair := h x y hx hy
      have hnumber : (choose x y).isNaN = false := by
        rcases List.mem_pair.mp hpair.mem with heq | heq <;> rwa [heq]
      exact hpair.of_pair (ih (List.forall_mem_cons.mpr ⟨hnumber, hxs⟩))

theorem ChoosesLow.isLowest_extreme (h : ChoosesLow key choose)
    (hne : xs ≠ []) (hnumbers : ∀ x ∈ xs, x.isNaN = false) :
    IsLowest key xs (extreme choose xs) := by
  cases xs with
  | nil => contradiction
  | cons x xs => exact h.isLowest_foldl hnumbers

theorem ChoosesLow.extreme_eq_of_perm (h : ChoosesLow key choose)
    (hnumbers : ∀ x ∈ xs, x.isNaN = false)
    (hkeys : ∀ x ∈ xs, ∀ y ∈ xs, key x = key y → x = y) (hperm : xs.Perm ys) :
    extreme choose xs = extreme choose ys := by
  by_cases hne : xs = []
  · subst hne
    rw [hperm.nil_eq]
  · have hne' : ys ≠ [] := fun hnil => hne (hnil ▸ hperm).eq_nil
    obtain ⟨hmem, hle⟩ := h.isLowest_extreme hne hnumbers
    obtain ⟨hmem', hle'⟩ := h.isLowest_extreme hne'
      fun y hy => hnumbers y (hperm.mem_iff.mpr hy)
    have hmem' := hperm.mem_iff.mpr hmem'
    exact hkeys _ hmem _ hmem'
      ((hle _ hmem').antisymm (hle' _ (hperm.mem_iff.mp hmem)))

/-! ## Columns -/

theorem isLeast_extreme_lesser (hne : xs ≠ [])
    (hnumbers : ∀ x ∈ xs, x.isNaN = false) :
    IsLeast {x | x ∈ xs} (extreme lesser xs) := by
  obtain ⟨hmem, hle⟩ := choosesLow_lesser.isLowest_extreme hne hnumbers
  exact ⟨hmem, fun x hx => (Number.le_iff_signedMagnitude_le
    (hnumbers _ hmem) (hnumbers x hx)).mpr (hle x hx)⟩

theorem isGreatest_extreme_greater (hne : xs ≠ [])
    (hnumbers : ∀ x ∈ xs, x.isNaN = false) :
    IsGreatest {x | x ∈ xs} (extreme greater xs) := by
  obtain ⟨hmem, hle⟩ := choosesLow_greater.isLowest_extreme hne hnumbers
  exact ⟨hmem, fun x hx => (Number.le_iff_signedMagnitude_le
    (hnumbers x hx) (hnumbers _ hmem)).mpr (neg_le_neg_iff.mp (hle x hx))⟩

theorem mem_present {c : Dataset.Column} :
    x ∈ present c ↔ some x ∈ c.values.numeric := by
  simp [present]

theorem length_present (c : Dataset.Column) :
    (present c).length = c.values.numeric.countP Option.isSome :=
  List.length_filterMap_eq_countP ..

end KpiFunction

namespace Dataset.Column

open KpiFunction

/-- The function has this value on the column, in every dataset, and so has each
call of it by the name of the column where that name finds the column. -/
structure Yields (c : Column) (f : KpiFunction) (x : Float) : Prop where
  value (d : Dataset) : f.value? d [c] = some x
  called (d : Dataset) (h : d.column? c.name = some c) : d.Gives f [c.name] x

variable {t : Table} {classes : List ColumnClass} {c c' : Column}

theorem yields_of_value {f : KpiFunction} {x : Float} (hf : f.arity = 1)
    (h : ∀ d, f.value? d [c] = some x) : c.Yields f x where
  value := h
  called d hc := by
    refine @gives_of_columns d f _ [c] x hf.symm ?_ (h d)
    rw [List.map_singleton, hc, List.map_singleton]

theorem yields_minimum (c : Column) :
    c.Yields .minimum (extreme lesser (present c)) :=
  yields_of_value rfl fun _ => rfl

theorem yields_maximum (c : Column) :
    c.Yields .maximum (extreme greater (present c)) :=
  yields_of_value rfl fun _ => rfl

theorem yields_count (c : Column) :
    c.Yields .count (Float.ofNat (c.values.numeric.countP Option.isSome)) :=
  yields_of_value rfl fun _ => by rw [← length_present]; rfl

private theorem yields_zero (h : present c = []) {f : KpiFunction}
    (hf : f ∈ [minimum, maximum, count]) : c.Yields f 0.0 := by
  have hmin := c.yields_minimum
  have hmax := c.yields_maximum
  have hcount := c.yields_count
  rw [h] at hmin hmax
  rw [← length_present, h] at hcount
  simp only [List.mem_cons, List.not_mem_nil, or_false] at hf
  rcases hf with rfl | rfl | rfl
  · exact hmin
  · exact hmax
  · exact hcount

private theorem eq_of_mem_present
    (hzeros : ¬(0.0 ∈ present c ∧ -0.0 ∈ present c)) {x y : Float}
    (hx : x ∈ present c) (hy : y ∈ present c)
    (h : Number.signedMagnitude x = Number.signedMagnitude y) : x = y := by
  rcases Number.eq_or_zeros_of_signedMagnitude_eq h with
    heq | ⟨rfl, rfl⟩ | ⟨rfl, rfl⟩
  · exact heq
  · exact absurd ⟨hx, hy⟩ hzeros
  · exact absurd ⟨hy, hx⟩ hzeros

private theorem exists_yields_of_perm
    (hnumbers : ∀ x ∈ present c, x.isNaN = false)
    (hzeros : ¬(0.0 ∈ present c ∧ -0.0 ∈ present c))
    (hperm : (present c).Perm (present c')) {f : KpiFunction}
    (hf : f ∈ [minimum, maximum, count]) :
    ∃ x, c.Yields f x ∧ c'.Yields f x := by
  simp only [List.mem_cons, List.not_mem_nil, or_false] at hf
  rcases hf with rfl | rfl | rfl
  · refine ⟨_, c.yields_minimum, ?_⟩
    rw [choosesLow_lesser.extreme_eq_of_perm hnumbers
      (fun x hx y hy => eq_of_mem_present hzeros hx hy) hperm]
    exact c'.yields_minimum
  · refine ⟨_, c.yields_maximum, ?_⟩
    rw [choosesLow_greater.extreme_eq_of_perm hnumbers
      (fun x hx y hy h => eq_of_mem_present hzeros hx hy (neg_inj.mp h)) hperm]
    exact c'.yields_maximum
  · refine ⟨_, c.yields_count, ?_⟩
    rw [← length_present, hperm.length_eq, length_present]
    exact c'.yields_count

theorem isNaN_of_mem_numeric (hc : c ∈ (t.normalize classes).dataset.columns)
    {x : Float} (hx : some x ∈ c.values.numeric) : x.isNaN = false := by
  obtain ⟨raw, -, rfl⟩ := List.mem_map.mp hc
  exact (Values.storedAs_typed (dtypeOf classes raw.name)
    (raw.padded t.rowCount)).isNaN_of_mem_numeric hx

/--
The minimum of a column that normalization made is the least of the numbers in
it, the maximum is the greatest and the count is how many there are; without
numbers all three are zero.  Unless both zeros are among the numbers, another
order of the rows, and missing cells put in or left out anywhere, make no
difference to any of them.
-/
theorem extremes_of_numbers
    (hc : c ∈ (t.normalize classes).dataset.columns) :
    c.Yields .count (Float.ofNat (c.values.numeric.countP Option.isSome)) ∧
    ((∀ x, some x ∉ c.values.numeric) →
      ∀ f ∈ [.minimum, .maximum, .count], c.Yields f 0.0) ∧
    (∀ x, some x ∈ c.values.numeric → ∃ least greatest,
      c.Yields .minimum least ∧
      IsLeast {x | some x ∈ c.values.numeric} least ∧
      c.Yields .maximum greatest ∧
      IsGreatest {x | some x ∈ c.values.numeric} greatest) ∧
    (¬(some 0.0 ∈ c.values.numeric ∧ some (-0.0) ∈ c.values.numeric) →
      ∀ c' : Column, c.values.Rearranges c'.values →
        ∀ f ∈ [.minimum, .maximum, .count],
          ∃ x, c.Yields f x ∧ c'.Yields f x) := by
  have hnumbers : ∀ x ∈ present c, x.isNaN = false :=
    fun x hx => isNaN_of_mem_numeric hc (mem_present.mp hx)
  simp only [← mem_present]
  refine ⟨c.yields_count, fun hnone f => ?_, fun x hx => ?_,
    fun hzeros c' hrows f => ?_⟩
  · exact yields_zero (List.eq_nil_iff_forall_not_mem.mpr hnone)
  · have hne := List.ne_nil_of_mem hx
    exact ⟨_, _, c.yields_minimum, isLeast_extreme_lesser hne hnumbers,
      c.yields_maximum, isGreatest_extreme_greater hne hnumbers⟩
  · exact exists_yields_of_perm hnumbers hzeros hrows.perm

theorem extremes_of_numbers_saldo :
    let t : Table :=
      ⟨[⟨"saldo", [.text "-3", .null, .text "abc", .number (-7.5)]⟩]⟩
    let c : Column := ⟨"saldo", .string,
      .texts [.text "-3", .null, .text "abc", .number (-7.5)]⟩
    let c' : Column := ⟨"saldo", .string,
      .texts [.number (-7.5), .null, .text "-3"]⟩
    c ∈ (t.normalize []).dataset.columns ∧
      c.values.Rearranges c'.values ∧ c'.Yields .minimum (-7.5) := by
  intro t c c'
  have hc : c ∈ (t.normalize []).dataset.columns := by
    decide +kernel
  have hrows : c.values.Rearranges c'.values := by
    have hperm : [.text "-3", .null, .text "abc", .number (-7.5)].Perm
        [Cell.number (-7.5), .null, .text "abc", .text "-3"] := by
      decide +kernel
    refine .texts (.trans (.reordered hperm) (.removed ?_))
    exact .keep _ (.keep _ (.pad (by decide +kernel) (.keep _ .nil)))
  refine ⟨hc, hrows, ?_⟩
  obtain ⟨-, -, -, hsame⟩ := extremes_of_numbers hc
  have hnonzero : ∀ x ∈ c.values.numeric, x ≠ some 0.0 := by
    decide +kernel
  obtain ⟨least, hmin, hmin'⟩ := hsame (fun h => hnonzero _ h.1 rfl) c' hrows
    .minimum (by decide)
  have hleast : KpiFunction.minimum.value? ⟨[], 0⟩ [c] = some (-7.5) := by
    decide +kernel
  rw [hmin.value] at hleast
  rwa [Option.some.inj hleast] at hmin'

end Dataset.Column

end Chartbook
