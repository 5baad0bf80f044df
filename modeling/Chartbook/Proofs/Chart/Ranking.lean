import Chartbook.Proofs.Descending
import Chartbook.Proofs.Number.Order

/-!
# Rankings

A ranking of labelled sums has the largest sums first and keeps equal sums in
the order in which they came.  There is one ranking of a list, and sorting it by
the total order of floats finds it, as long as no sum is NaN or the negative
zero.
-/

namespace Chartbook

/-! ## Labelled sums -/

/--
The largest sums come first, and equal sums stay in their order.  The sums are
compared as floats are, so a NaN would be comparable to none of them.
-/
structure IsRanking (shares ranked : List (String × Float)) : Prop where
  perm : ranked.Perm shares
  descending : ranked.Pairwise fun a b => b.2 ≤ a.2
  stable : ∀ share ∈ shares, (ranked.filter fun s => s.2 == share.2) =
    shares.filter fun s => s.2 == share.2

def byRank (shares : List (String × Float)) : List (String × Float) :=
  shares.mergeSort fun a b => decide (Number.rank b.2 ≤ Number.rank a.2)

theorem byRank_perm (shares : List (String × Float)) :
    (byRank shares).Perm shares :=
  List.mergeSort_perm ..

section Ordered

variable {shares : List (String × Float)}
  (h : ∀ share ∈ shares, Number.IsOrdered share.2)
include h

theorem filter_beq_eq {share : String × Float} (hshare : share ∈ shares)
    {l : List (String × Float)} (hl : l.Perm shares) :
    (l.filter fun s => s.2 == share.2) =
      l.filter fun s => decide (Number.rank s.2 = Number.rank share.2) := by
  apply List.filter_congr
  intro s hs
  have hiff := Number.beq_eq_true_iff (h s (hl.mem_iff.mp hs)) (h share hshare)
  rw [Bool.eq_iff_iff, hiff, decide_eq_true_iff]
  exact ⟨congrArg Number.rank, Number.eq_of_rank_eq⟩

theorem isRanking_byRank : IsRanking shares (byRank shares) where
  perm := byRank_perm shares
  descending := by
    refine (pairwise_mergeSort_descending (fun s : String × Float =>
      Number.rank s.2) shares).imp_of_mem fun ha hb hle => ?_
    exact (Number.le_iff_rank_le (h _ (List.mem_mergeSort.mp hb))
      (h _ (List.mem_mergeSort.mp ha))).mpr hle
  stable share hshare := by
    rw [filter_beq_eq h hshare (byRank_perm shares),
      filter_beq_eq h hshare (List.Perm.refl _)]
    exact filter_mergeSort_descending (fun s : String × Float =>
      Number.rank s.2) ..

theorem IsRanking.eq_byRank {ranked : List (String × Float)}
    (hranked : IsRanking shares ranked) : ranked = byRank shares := by
  refine eq_of_descending (f := fun s => Number.rank s.2) ?_
    (pairwise_mergeSort_descending _ shares) fun k => ?_
  · refine hranked.descending.imp_of_mem fun ha hb hle => ?_
    exact (Number.le_iff_rank_le (h _ (hranked.perm.mem_iff.mp hb))
      (h _ (hranked.perm.mem_iff.mp ha))).mp hle
  · by_cases hk : ∃ share ∈ shares, Number.rank share.2 = k
    · obtain ⟨share, hshare, rfl⟩ := hk
      rw [← filter_beq_eq h hshare hranked.perm, hranked.stable share hshare,
        ← filter_beq_eq h hshare (byRank_perm shares),
        (isRanking_byRank h).stable share hshare]
    · have hnil {l : List (String × Float)} (hl : l.Perm shares) :
          (l.filter fun s => decide (Number.rank s.2 = k)) = [] := by
        rw [List.filter_eq_nil_iff]
        intro s hs hrank
        exact hk ⟨s, hl.mem_iff.mp hs, of_decide_eq_true hrank⟩
      rw [hnil hranked.perm, hnil (byRank_perm shares)]

/-! ## The top of a ranking -/

/--
The first of the ranked sums, and there is one way to rank them.  What is left
out is not larger than anything that is shown.
-/
structure IsTop (n : Nat) (shares shown : List (String × Float)) : Prop where
  exists_ranking : ∃ ranked, IsRanking shares ranked
  eq_take : ∀ ranked, IsRanking shares ranked → shown = ranked.take n
  length : shown.length = min n shares.length
  le_of_omitted : ∀ share ∈ shares, share ∉ shown → ∀ s ∈ shown,
    share.2 ≤ s.2
  perm_of_le : shares.length ≤ n → shown.Perm shares

theorem isTop_byRank (n : Nat) : IsTop n shares ((byRank shares).take n) where
  exists_ranking := ⟨_, isRanking_byRank h⟩
  eq_take ranked hranked := by rw [hranked.eq_byRank h]
  length := by rw [List.length_take, (byRank_perm shares).length_eq]
  le_of_omitted share hshare homitted s hs := by
    have hmem := (byRank_perm shares).mem_iff.mpr hshare
    have hdescending := (isRanking_byRank h).descending
    exact (rel_of_notMem_take hdescending hmem homitted hs :)
  perm_of_le hn := by
    rw [List.take_of_length_le ((byRank_perm shares).length_eq.trans_le hn)]
    exact byRank_perm shares

end Ordered

end Chartbook
