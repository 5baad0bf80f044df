import Mathlib.Data.List.Pairwise
import Mathlib.Order.Lattice

/-!
# Descending lists

A list that descends by a key is determined by its members with each key, in
their order.  Sorting by the key keeps this order, so it also keeps a relation
between members with one key that held from each member to all later ones.  The
members in front of a cut are in such a relation to those behind it.
-/

namespace Chartbook

variable {α κ : Type} [LinearOrder κ] {f : α → κ} {l l' : List α}

theorem mem_iff_of_filter_eq (hfilter : ∀ k, (l.filter fun a => f a = k) =
    l'.filter fun a => f a = k) (a : α) : a ∈ l ↔ a ∈ l' := by
  have hiff := congrArg (a ∈ ·) (hfilter (f a))
  simpa using hiff

/-- A descending list is determined by its members with each key, in order. -/
theorem eq_of_descending (h : l.Pairwise fun a b => f b ≤ f a)
    (h' : l'.Pairwise fun a b => f b ≤ f a)
    (hfilter : ∀ k, (l.filter fun a => f a = k) =
      l'.filter fun a => f a = k) : l = l' := by
  have hmem := mem_iff_of_filter_eq hfilter
  induction l generalizing l' with
  | nil =>
      refine (List.eq_nil_iff_forall_not_mem.mpr fun b hb => ?_).symm
      exact absurd ((hmem b).mpr hb) List.not_mem_nil
  | cons a l ih =>
      cases l' with
      | nil => exact absurd ((hmem a).mp List.mem_cons_self) List.not_mem_nil
      | cons b l' =>
          obtain ⟨ha, hl⟩ := List.pairwise_cons.mp h
          obtain ⟨hb, hl'⟩ := List.pairwise_cons.mp h'
          have ha : ∀ c ∈ a :: l, f c ≤ f a :=
            List.forall_mem_cons.mpr ⟨le_rfl, ha⟩
          have hb : ∀ c ∈ b :: l', f c ≤ f b :=
            List.forall_mem_cons.mpr ⟨le_rfl, hb⟩
          have hkey : f b = f a :=
            le_antisymm (ha b ((hmem b).mpr List.mem_cons_self))
              (hb a ((hmem a).mp List.mem_cons_self))
          have hheads := hfilter (f a)
          rw [List.filter_cons_of_pos (by simp),
            List.filter_cons_of_pos (by simpa using hkey)] at hheads
          obtain ⟨rfl, -⟩ := List.cons.inj hheads
          have htails (k : κ) : (l.filter fun a => f a = k) =
              l'.filter fun a => f a = k := by
            have hk := hfilter k
            rw [List.filter_cons, List.filter_cons] at hk
            split at hk
            · exact (List.cons.inj hk).2
            · exact hk
          rw [ih hl hl' htails (mem_iff_of_filter_eq htails)]

theorem descending_trans (a b c : α) (hab : decide (f b ≤ f a) = true)
    (hbc : decide (f c ≤ f b) = true) : decide (f c ≤ f a) = true :=
  decide_eq_true ((of_decide_eq_true hbc).trans (of_decide_eq_true hab))

theorem descending_total (a b : α) :
    (decide (f b ≤ f a) || decide (f a ≤ f b)) = true := by
  simpa using le_total (f b) (f a)

theorem pairwise_mergeSort_descending (f : α → κ) (l : List α) :
    (l.mergeSort fun a b => decide (f b ≤ f a)).Pairwise
      fun a b => f b ≤ f a := by
  refine (List.pairwise_mergeSort ?_ ?_ l).imp of_decide_eq_true
  · exact descending_trans
  · exact descending_total

theorem filter_mergeSort_descending (f : α → κ) (l : List α) (k : κ) :
    ((l.mergeSort fun a b => decide (f b ≤ f a)).filter fun a => f a = k) =
      l.filter fun a => f a = k := by
  have hkey : (l.filter fun a => f a = k).Pairwise
      fun a b => decide (f b ≤ f a) = true := by
    refine List.pairwise_of_forall_mem_list fun a ha b hb => ?_
    have ha : f a = k := of_decide_eq_true (List.mem_filter.mp ha).2
    have hb : f b = k := of_decide_eq_true (List.mem_filter.mp hb).2
    rw [ha, hb]
    exact decide_eq_true le_rfl
  have hsub := (List.sublist_mergeSort descending_trans descending_total hkey
    List.filter_sublist).filter fun a => decide (f a = k)
  rw [List.filter_filter] at hsub
  simp only [Bool.and_self] at hsub
  refine (hsub.eq_of_length ?_).symm
  exact ((List.mergeSort_perm l _).filter _).length_eq.symm

theorem pairwise_mergeSort_ties {r : α → α → Prop} (f : α → κ)
    (h : l.Pairwise r) :
    (l.mergeSort fun a b => decide (f b ≤ f a)).Pairwise
      fun a b => f b < f a ∨ f a = f b ∧ r a b := by
  rw [List.pairwise_iff_forall_sublist] at h ⊢
  intro a b hsub
  have hle : f b ≤ f a := List.pairwise_iff_forall_sublist.mp
    (pairwise_mergeSort_descending f l) hsub
  refine hle.lt_or_eq.imp_right fun hkey => ⟨hkey.symm, h ?_⟩
  have hsame := hsub.filter fun c => decide (f c = f a)
  rw [filter_mergeSort_descending, List.filter_cons_of_pos (by simp),
    List.filter_cons_of_pos (by simpa using hkey), List.filter_nil] at hsame
  exact hsame.trans List.filter_sublist

theorem rel_of_notMem_take {r : α → α → Prop} {n : Nat} {a b : α}
    (h : l.Pairwise r) (ha : a ∈ l) (homitted : a ∉ l.take n)
    (hb : b ∈ l.take n) : r b a := by
  rw [← List.take_append_drop n l] at h ha
  have hdrop := (List.mem_append.mp ha).resolve_left homitted
  exact (List.pairwise_append.mp h).2.2 b hb a hdrop

end Chartbook
