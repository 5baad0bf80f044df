import Chartbook.Text.Blank
import Mathlib.Data.List.DropRight
import Mathlib.Data.List.TakeWhile

/-!
# Trimmed texts

Trimming cuts a text into white space, a middle part that keeps its ends, and
white space again.  Texts that differ only in such outer white space are trimmed
alike.
-/

namespace Chartbook.Text

abbrev AllBlank (s : List Char) : Prop := ∀ c ∈ s, isBlank c = true

theorem toLower_of_isBlank {c : Char} (h : isBlank c = true) :
    c.toLower = c := by
  have hlower : ¬(65 ≤ c.val.toNat ∧ c.val.toNat ≤ 90) := by
    simp only [isBlank, Char.toNat] at h
    grind
  exact dif_neg hlower

theorem toNat_of_isAlpha {c : Char} (h : c.isAlpha = true) :
    65 ≤ c.toNat ∧ c.toNat ≤ 90 ∨ 97 ≤ c.toNat ∧ c.toNat ≤ 122 := by
  rcases Bool.or_eq_true_iff.mp h with hupper | hlower
  · obtain ⟨hlow, hhigh⟩ : 'A'.val ≤ c.val ∧ c.val ≤ 'Z'.val :=
      of_decide_eq_true hupper
    exact .inl ⟨UInt32.le_iff_toNat_le.mp hlow,
      UInt32.le_iff_toNat_le.mp hhigh⟩
  · obtain ⟨hlow, hhigh⟩ := Bool.and_eq_true_iff.mp hlower
    exact .inr ⟨UInt32.le_iff_toNat_le.mp (of_decide_eq_true hlow),
      UInt32.le_iff_toNat_le.mp (of_decide_eq_true hhigh)⟩

theorem isAlpha_of_isBlank {c : Char} (h : isBlank c = true) :
    c.isAlpha = false := by
  refine Bool.eq_false_iff.mpr fun halpha => ?_
  have hrange := toNat_of_isAlpha halpha
  simp only [isBlank] at h
  grind

theorem trimStart_append {before : List Char} (h : AllBlank before)
    (s : List Char) : trimStart (before ++ s) = trimStart s :=
  List.dropWhile_append_of_pos h

theorem trimStart_cons {c : Char} (h : isBlank c = false) (s : List Char) :
    trimStart (c :: s) = c :: s :=
  List.dropWhile_cons_of_neg (by simp [h])

theorem trimStart_trimStart (s : List Char) :
    trimStart (trimStart s) = trimStart s :=
  List.dropWhile_idempotent ..

theorem trimEnd_append {after : List Char} (h : AllBlank after)
    (s : List Char) : trimEnd (s ++ after) = trimEnd s := by
  have hreverse : ∀ c ∈ after.reverse, isBlank c = true := fun c hc =>
    h c (List.mem_reverse.mp hc)
  rw [trimEnd, List.reverse_append, List.dropWhile_append_of_pos hreverse]
  rfl

theorem trimEnd_concat {c : Char} (h : isBlank c = false) (s : List Char) :
    trimEnd (s ++ [c]) = s ++ [c] := by
  rw [trimEnd, List.reverse_concat,
    List.dropWhile_cons_of_neg (by simp [h]), List.reverse_cons,
    List.reverse_reverse]

theorem trimEnd_eq_self {s : List Char} (h : ∀ c ∈ s, isBlank c = false) :
    trimEnd s = s := by
  rcases List.eq_nil_or_concat s with rfl | ⟨s, c, rfl⟩
  · rfl
  · rw [List.concat_eq_append] at h ⊢
    exact trimEnd_concat (h c (by simp)) s

theorem trim_eq_self {s : List Char} (h : ∀ c ∈ s, isBlank c = false) :
    trim s = s := by
  have hstart : trimStart s = s := by
    cases s with
    | nil => rfl
    | cons c s => exact trimStart_cons (h c (by simp)) s
  rw [trim, hstart, trimEnd_eq_self h]

theorem trim_append_start {before : List Char} (h : AllBlank before)
    (s : List Char) : trim (before ++ s) = trim s := by
  rw [trim, trimStart_append h, trim]

private theorem trim_append_end {after : List Char} (h : AllBlank after)
    (s : List Char) : trim (s ++ after) = trim s := by
  rw [trim, trimStart, List.dropWhile_append, List.dropWhile_eq_nil_iff.mpr h]
  split
  · rename_i hblank
    rw [trim, trimStart, List.isEmpty_iff.mp hblank]
  · exact trimEnd_append h _

theorem trim_append {before after : List Char} (hbefore : AllBlank before)
    (hafter : AllBlank after) (s : List Char) :
    trim (before ++ s ++ after) = trim s := by
  rw [trim_append_end hafter, trim_append_start hbefore]

theorem exists_eq_trimEnd_append (s : List Char) :
    ∃ after, AllBlank after ∧ s = trimEnd s ++ after := by
  refine ⟨(s.reverse.takeWhile isBlank).reverse, fun c hc => ?_, ?_⟩
  · exact List.mem_takeWhile_imp (List.mem_reverse.mp hc)
  · rw [trimEnd, ← List.reverse_append, List.takeWhile_append_dropWhile,
      List.reverse_reverse]

theorem exists_eq_append_trim (s : List Char) :
    ∃ before after, AllBlank before ∧ AllBlank after ∧
      s = before ++ trim s ++ after := by
  obtain ⟨after, hafter, hend⟩ := exists_eq_trimEnd_append (trimStart s)
  refine ⟨s.takeWhile isBlank, after, fun c hc => List.mem_takeWhile_imp hc,
    hafter, ?_⟩
  rw [List.append_assoc, trim, ← hend, trimStart,
    List.takeWhile_append_dropWhile]

theorem trim_trim (s : List Char) : trim (trim s) = trim s := by
  obtain ⟨before, after, hbefore, hafter, heq⟩ := exists_eq_append_trim s
  have htrim := trim_append hbefore hafter (trim s)
  rw [← heq] at htrim
  exact htrim.symm

theorem trim_cons_concat {first last : Char} (hfirst : isBlank first = false)
    (hlast : isBlank last = false) (s : List Char) :
    trim (first :: s ++ [last]) = first :: s ++ [last] := by
  rw [trim, List.cons_append, trimStart_cons hfirst, ← List.cons_append,
    trimEnd_concat hlast]

theorem trim_append_self {s t : List Char} (hs : s ≠ []) (ht : t ≠ [])
    (hs' : ∀ c ∈ s, isBlank c = false) (ht' : ∀ c ∈ t, isBlank c = false)
    (middle : List Char) : trim (s ++ middle ++ t) = s ++ middle ++ t := by
  obtain ⟨first, s, rfl⟩ := List.exists_cons_of_ne_nil hs
  obtain ⟨t, last, rfl⟩ := (List.eq_nil_or_concat t).resolve_left ht
  rw [List.concat_eq_append] at ht' ⊢
  have htrim := trim_cons_concat (hs' first (by simp)) (ht' last (by simp))
    (s ++ middle ++ t)
  simpa using htrim

theorem mem_trim {c : Char} {s : List Char} (hblank : isBlank c = false)
    (h : c ∈ s) : c ∈ trim s := by
  obtain ⟨before, after, hbefore, hafter, heq⟩ := exists_eq_append_trim s
  rw [heq] at h
  rcases List.mem_append.mp h with h | h
  · rcases List.mem_append.mp h with h | h
    · simp [hbefore c h] at hblank
    · exact h
  · simp [hafter c h] at hblank

theorem trim_eq_nil_iff {s : List Char} : trim s = [] ↔ AllBlank s := by
  constructor
  · intro h c hc
    refine Bool.of_not_eq_false fun hblank => ?_
    have hmem := mem_trim hblank hc
    simp [h] at hmem
  · intro h
    have hnil := trim_append_start h []
    rwa [List.append_nil] at hnil

/-! ## Texts without their white space -/

abbrev unspaced (s : List Char) : List Char := s.filter fun c => !isBlank c

theorem unspaced_eq_self {s : List Char} (h : ∀ c ∈ s, isBlank c = false) :
    unspaced s = s :=
  List.filter_eq_self.mpr fun c hc => by rw [h c hc]; rfl

theorem unspaced_eq_nil {s : List Char} (h : AllBlank s) : unspaced s = [] :=
  List.filter_eq_nil_iff.mpr fun c hc => by simp [h c hc]

private theorem unspaced_trimStart (s : List Char) :
    unspaced (trimStart s) = unspaced s := by
  have hblank : AllBlank (s.takeWhile isBlank) :=
    fun c hc => List.mem_takeWhile_imp hc
  conv_rhs => rw [← List.takeWhile_append_dropWhile (p := isBlank) (l := s)]
  rw [unspaced, unspaced, List.filter_append]
  exact (congrArg (· ++ _) (unspaced_eq_nil hblank)).symm

theorem unspaced_trimEnd (s : List Char) :
    unspaced (trimEnd s) = unspaced s := by
  obtain ⟨after, hafter, hs⟩ := exists_eq_trimEnd_append s
  conv_rhs => rw [hs]
  rw [unspaced, unspaced, List.filter_append, ← unspaced, ← unspaced,
    unspaced_eq_nil hafter, List.append_nil]

private theorem unspaced_trim (s : List Char) :
    unspaced (trim s) = unspaced s := by
  rw [trim, unspaced_trimEnd, unspaced_trimStart]

private theorem trimEnd_append_of_not_blank {s : List Char}
    (h : ∀ c ∈ s, isBlank c = false) (t : List Char) :
    trimEnd (s ++ t) = s ++ trimEnd t := by
  have hs : s.reverse.dropWhile isBlank = s.reverse := by
    have hself := congrArg List.reverse (trimEnd_eq_self h)
    rwa [trimEnd, List.reverse_reverse] at hself
  rw [trimEnd, trimEnd, List.reverse_append, List.dropWhile_append, hs]
  split
  · rename_i hempty
    rw [List.isEmpty_iff.mp hempty, List.reverse_reverse, List.reverse_nil,
      List.append_nil]
  · rw [List.reverse_append, List.reverse_reverse]

theorem exists_trim_eq_append {before s : List Char} (hbefore : AllBlank before)
    (hs : ∀ c ∈ s, isBlank c = false) (t : List Char) :
    ∃ t', trim (before ++ s ++ t) = s ++ t' ∧ unspaced t' = unspaced t := by
  cases s with
  | nil =>
      refine ⟨trim t, ?_, unspaced_trim t⟩
      rw [List.append_nil, trim_append_start hbefore, List.nil_append]
  | cons c s =>
      refine ⟨trimEnd t, ?_, unspaced_trimEnd t⟩
      rw [List.append_assoc, trim_append_start hbefore, trim, List.cons_append,
        trimStart_cons (hs c (List.mem_cons_self ..)), ← List.cons_append,
        trimEnd_append_of_not_blank hs]

end Chartbook.Text
