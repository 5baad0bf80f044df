import Chartbook.Dataset.Profile
import Chartbook.Proofs.Descending
import Chartbook.Proofs.Keyed
import Chartbook.Proofs.Lookup
import Mathlib.Data.Finset.Card

/-!
# The most frequent texts of a column

The texts of a column are counted in the order of their first rows.  The sort by
counts keeps this order among equal counts, so texts are ranked by how often
they stand in the column and then by where they stand first, and the profile
shows the top of this ranking.
-/

namespace Chartbook

/-! ## Texts in a column -/

def occurrences (cells : List Cell) (s : String) : Nat :=
  cells.countP fun c => c.text? = some s

def firstRow (cells : List Cell) (s : String) : Nat :=
  cells.findIdx fun c => c.text? = some s

def distinctTexts (cells : List Cell) : Finset String :=
  (cells.filterMap Cell.text?).toFinset

section Rows

variable {cells : List Cell} {c : Cell} {s : String}

theorem occurrences_concat : occurrences (cells ++ [c]) s =
    occurrences cells s + if c.text? = some s then 1 else 0 := by
  simp [occurrences, List.countP_append, List.countP_cons]

theorem occurrences_pos_iff :
    0 < occurrences cells s ↔ ∃ c ∈ cells, c.text? = some s := by
  simp [occurrences, List.countP_pos_iff]

theorem mem_distinctTexts :
    s ∈ distinctTexts cells ↔ 0 < occurrences cells s := by
  simp [distinctTexts, occurrences_pos_iff]

theorem firstRow_lt_iff :
    firstRow cells s < cells.length ↔ 0 < occurrences cells s := by
  simp [firstRow, occurrences_pos_iff, List.findIdx_lt_length]

theorem firstRow_concat (h : 0 < occurrences cells s) :
    firstRow (cells ++ [c]) s = firstRow cells s := by
  have hlt := firstRow_lt_iff.mpr h
  rw [firstRow] at hlt ⊢
  rw [List.findIdx_append, if_pos hlt]
  rfl

theorem firstRow_concat_new (h : occurrences cells s = 0)
    (hc : c.text? = some s) : firstRow (cells ++ [c]) s = cells.length := by
  have hlt := mt firstRow_lt_iff.mp (by omega : ¬0 < occurrences cells s)
  rw [firstRow] at hlt ⊢
  rw [List.findIdx_append, if_neg hlt]
  simp [hc, List.findIdx_cons]

end Rows

/-! ## Counting -/

/-- What has been counted in some cells: one entry for each text. -/
structure IsTally (cells : List Cell) (counts : List (String × Nat)) :
    Prop where
  mem_keys : ∀ s, s ∈ counts.map Prod.fst ↔ 0 < occurrences cells s
  count : ∀ s, (counts.lookup s).getD 0 = occurrences cells s
  ordered : (counts.map Prod.fst).Pairwise fun s s' =>
    firstRow cells s < firstRow cells s'

namespace IsTally

variable {cells : List Cell} {counts : List (String × Nat)} {c : Cell}
  {s : String}

theorem nil : IsTally [] [] := ⟨by simp [occurrences], fun _ => rfl, .nil⟩

theorem ordered_concat (h : IsTally cells counts) :
    (counts.map Prod.fst).Pairwise fun s s' =>
      firstRow (cells ++ [c]) s < firstRow (cells ++ [c]) s' := by
  refine h.ordered.imp_of_mem fun hs hs' hlt => ?_
  rwa [firstRow_concat ((h.mem_keys _).mp hs),
    firstRow_concat ((h.mem_keys _).mp hs')]

theorem skip (h : IsTally cells counts) (hc : c.text? = none) :
    IsTally (cells ++ [c]) counts where
  mem_keys s := by simpa [occurrences_concat, hc] using h.mem_keys s
  count s := by simpa [occurrences_concat, hc] using h.count s
  ordered := h.ordered_concat

private theorem keys_bump : (bump counts s).map Prod.fst =
    if s ∈ counts.map Prod.fst then counts.map Prod.fst
    else counts.map Prod.fst ++ [s] :=
  putPair_keys ..

theorem step (h : IsTally cells counts) (hc : c.text? = some s) :
    IsTally (cells ++ [c]) (bump counts s) where
  mem_keys s' := by
    have hkeys := h.mem_keys s'
    rw [keys_bump, occurrences_concat, hc]
    by_cases hs : s = s'
    · subst hs
      by_cases hmem : s ∈ counts.map Prod.fst <;> simp [hmem]
    · split <;> simp [hkeys, hs, Ne.symm hs]
  count s' := by
    rw [bump, lookup_putPair, occurrences_concat, hc, ← h.count s']
    by_cases hs : s' = s
    · simp [hs]
    · simp [hs, Ne.symm hs]
  ordered := by
    rw [keys_bump]
    split
    · exact h.ordered_concat
    · rename_i hnew
      have hzero : occurrences cells s = 0 := by
        rw [h.mem_keys] at hnew
        omega
      refine List.pairwise_append.mpr
        ⟨h.ordered_concat, List.pairwise_singleton .., fun s' hs' t ht => ?_⟩
      have hpos := (h.mem_keys s').mp hs'
      rw [List.mem_singleton.mp ht, firstRow_concat_new hzero hc,
        firstRow_concat hpos]
      exact firstRow_lt_iff.mpr hpos

theorem nodup (h : IsTally cells counts) : (counts.map Prod.fst).Nodup :=
  h.ordered.imp fun hlt heq => by simp [heq] at hlt

theorem eq_of_mem (h : IsTally cells counts) {n : Nat}
    (hmem : (s, n) ∈ counts) : n = occurrences cells s := by
  rw [← h.count s, (lookup_eq_some_iff_mem h.nodup).mpr hmem]
  rfl

end IsTally

theorem isTally_tally (cells : List Cell) :
    IsTally cells (tally (cells.filterMap Cell.text?)) := by
  induction cells using List.reverseRecOn with
  | nil => exact .nil
  | append_singleton cells c ih =>
      rw [List.filterMap_append]
      cases hc : c.text? with
      | none => simpa [hc] using ih.skip hc
      | some s => simpa [hc, tally] using ih.step hc

/-! ## Ranking -/

/-- The first text is more frequent, or as frequent and first to appear. -/
def Precedes (cells : List Cell) (s s' : String) : Prop :=
  occurrences cells s' < occurrences cells s ∨
    occurrences cells s = occurrences cells s' ∧
      firstRow cells s < firstRow cells s'

section Precedes

variable {cells : List Cell} {s s' : String}

theorem Precedes.le (h : Precedes cells s s') :
    occurrences cells s' ≤ occurrences cells s := by
  obtain hlt | ⟨heq, -⟩ := h
  · exact hlt.le
  · exact heq.ge

theorem Precedes.firstRow_lt (h : Precedes cells s s')
    (heq : occurrences cells s = occurrences cells s') :
    firstRow cells s < firstRow cells s' :=
  (h.resolve_left heq.le.not_gt).2

end Precedes

structure Ranks (cells : List Cell) (ranked : List String) : Prop where
  mem_iff : ∀ s, s ∈ ranked ↔ s ∈ distinctTexts cells
  precedes : ranked.Pairwise (Precedes cells)

theorem exists_ranks (cells : List Cell) :
    ∃ ranked, Ranks cells ranked ∧
      ((tally (cells.filterMap Cell.text?)).mergeSort fun a b => b.2 ≤ a.2) =
        ranked.map fun s => (s, occurrences cells s) := by
  have htally := isTally_tally cells
  generalize tally (cells.filterMap Cell.text?) = counts at htally
  have hcount : ∀ pair ∈ counts.mergeSort fun a b => b.2 ≤ a.2,
      pair.2 = occurrences cells pair.1 :=
    fun pair hpair => htally.eq_of_mem (List.mem_mergeSort.mp hpair)
  refine ⟨(counts.mergeSort fun a b => b.2 ≤ a.2).map Prod.fst, ⟨?_, ?_⟩, ?_⟩
  · intro s
    rw [mem_distinctTexts, ← htally.mem_keys]
    exact ((List.mergeSort_perm ..).map _).mem_iff
  · have hties := pairwise_mergeSort_ties (fun pair : String × Nat => pair.2)
      (List.pairwise_map.mp htally.ordered)
    refine List.pairwise_map.mpr (hties.imp_of_mem fun ha hb h => ?_)
    rwa [Precedes, ← hcount _ ha, ← hcount _ hb]
  · rw [List.map_map]
    refine (List.map_id _).symm.trans (List.map_congr_left fun pair hpair => ?_)
    exact Prod.ext rfl (hcount pair hpair)

/-! ## The top of the ranking -/

/--
The `n` most frequent texts with their counts.  Equally frequent texts are in
the order of their first rows, and a text that is left out comes after all of
them in both respects.
-/
structure IsTopTexts (n : Nat) (cells : List Cell) (values : List String)
    (counts : List Nat) : Prop where
  length_values : values.length = min n (distinctTexts cells).card
  length_counts : counts.length = min n (distinctTexts cells).card
  nodup : values.Nodup
  occurring : ∀ s ∈ values, s ∈ distinctTexts cells
  counts_eq : counts = values.map (occurrences cells)
  descending : counts.Pairwise (· ≥ ·)
  ties : values.Pairwise fun s s' =>
    occurrences cells s = occurrences cells s' →
      firstRow cells s < firstRow cells s'
  omitted : ∀ s ∈ distinctTexts cells, s ∉ values →
    ∃ last, counts.getLast? = some last ∧ occurrences cells s ≤ last ∧
      (occurrences cells s = last → ∀ s' ∈ values,
        occurrences cells s' = last → firstRow cells s' < firstRow cells s)

namespace Ranks

variable {cells : List Cell} {ranked : List String} {n : Nat}

theorem nodup (h : Ranks cells ranked) : ranked.Nodup :=
  h.precedes.imp fun hprecedes heq => by simp [Precedes, heq] at hprecedes

theorem length_eq (h : Ranks cells ranked) :
    ranked.length = (distinctTexts cells).card := by
  rw [← List.toFinset_card_of_nodup h.nodup]
  congr 1
  ext s
  simp [h.mem_iff]

theorem length_take (h : Ranks cells ranked) (n : Nat) :
    (ranked.take n).length = min n (distinctTexts cells).card := by
  rw [List.length_take, h.length_eq]

private theorem precedes_take (h : Ranks cells ranked) (n : Nat) :
    (ranked.take n).Pairwise (Precedes cells) :=
  h.precedes.sublist (List.take_sublist ..)

private theorem exists_last (h : Ranks cells ranked) (hn : 0 < n) {s : String}
    (hs : s ∈ distinctTexts cells) (homitted : s ∉ ranked.take n) :
    ∃ last, ((ranked.take n).map (occurrences cells)).getLast? = some last ∧
      occurrences cells s ≤ last ∧
      (occurrences cells s = last → ∀ s' ∈ ranked.take n,
        occurrences cells s' = last →
          firstRow cells s' < firstRow cells s) := by
  have hmem := (h.mem_iff s).mpr hs
  have hall : ∀ s' ∈ ranked.take n, Precedes cells s' s :=
    fun s' hs' => rel_of_notMem_take h.precedes hmem homitted hs'
  have hne : ranked.take n ≠ [] := by
    simpa [List.ne_nil_of_mem hmem] using hn.ne'
  refine ⟨occurrences cells ((ranked.take n).getLast hne), ?_, ?_, ?_⟩
  · rw [List.getLast?_map, List.getLast?_eq_some_getLast hne, Option.map_some]
  · exact (hall _ (List.getLast_mem hne)).le
  · intro hlast s' hs' hcount
    exact (hall s' hs').firstRow_lt (hcount.trans hlast.symm)

private theorem isTopTexts (h : Ranks cells ranked) (hn : 0 < n) :
    IsTopTexts n cells (ranked.take n)
      ((ranked.take n).map (occurrences cells)) where
  length_values := h.length_take n
  length_counts := by rw [List.length_map, h.length_take]
  nodup := h.nodup.sublist (List.take_sublist ..)
  occurring s hs := (h.mem_iff s).mp (List.mem_of_mem_take hs)
  counts_eq := rfl
  descending := List.pairwise_map.mpr ((h.precedes_take n).imp Precedes.le)
  ties := (h.precedes_take n).imp Precedes.firstRow_lt
  omitted s hs homitted := h.exists_last hn hs homitted

end Ranks

private theorem mostFrequent_eq (n : Nat) (cells : List Cell) : ∃ ranked,
    Ranks cells ranked ∧ mostFrequent n (cells.filterMap Cell.text?) =
      (ranked.take n).map fun s => (s, occurrences cells s) := by
  obtain ⟨ranked, hranks, hsort⟩ := exists_ranks cells
  exact ⟨ranked, hranks, by rw [mostFrequent, hsort, List.map_take]⟩

private theorem ofValues_texts (cells : List Cell) : ∃ values counts,
    ColumnStats.ofValues (.texts cells) = .texts values counts ∧
      IsTopTexts topValueCount cells values counts := by
  obtain ⟨ranked, hranks, htop⟩ := mostFrequent_eq topValueCount cells
  refine ⟨_, _, ?_, hranks.isTopTexts (by decide)⟩
  simp only [ColumnStats.ofValues, htop, List.map_map]
  congr
  exact List.map_id _

namespace Dataset

private theorem stats_get? {d : Dataset} {before after : List Column}
    {c : Column} (hsplit : d.columns = before ++ c :: after)
    (hlater : ∀ e ∈ after, e.name ≠ c.name) :
    d.profile.stats.get? c.name = some (ColumnStats.ofValues c.values) := by
  have hnone : (after.map fun e =>
      (e.name, ColumnStats.ofValues e.values)).reverse.lookup c.name =
        none := by
    refine lookup_of_notMem ?_
    simpa using hlater
  rw [profile, Keyed.get?_ofList, hsplit]
  simp [List.lookup_append, hnone]

/--
The profile shows the three most frequent texts of a column with their counts.
Of equally frequent texts the first to appear comes first, and no text that is
left out comes before one that is shown.  The look-up by name finds the last
column of that name.
-/
theorem profile_topTexts {d : Dataset} {before after : List Column} {c : Column}
    {cells : List Cell} (hsplit : d.columns = before ++ c :: after)
    (hcells : c.values = .texts cells) :
    ∃ values counts, ColumnStats.ofValues c.values = .texts values counts ∧
      IsTopTexts 3 cells values counts ∧
      ((∀ e ∈ after, e.name ≠ c.name) →
        d.profile.stats.get? c.name = some (.texts values counts)) := by
  obtain ⟨values, counts, hstats, htop⟩ := ofValues_texts cells
  rw [← hcells] at hstats
  refine ⟨values, counts, hstats, htop, fun hlater => ?_⟩
  rw [stats_get? hsplit hlater, hstats]

theorem profile_topTexts_tie :
    let cells : List Cell := [.text "Bruno", .text "Ana", .text "Ana",
      .text "Caio", .text "Bruno", .text "Dora", .null]
    let vendedor : Column := ⟨"vendedor", .category, .texts cells⟩
    let d : Dataset := ⟨[vendedor], 7⟩
    IsTopTexts 3 cells ["Bruno", "Ana", "Caio"] [2, 2, 1] ∧
      d.profile.stats.get? "vendedor" =
        some (.texts ["Bruno", "Ana", "Caio"] [2, 2, 1]) := by
  intro cells vendedor d
  obtain ⟨values, counts, hstats, htop, hprofile⟩ :=
    profile_topTexts (d := d) (c := vendedor)
      (show d.columns = [] ++ vendedor :: [] from rfl) rfl
  have htally : tally (cells.filterMap Cell.text?) =
      [("Bruno", 2), ("Ana", 2), ("Caio", 1), ("Dora", 1)] := by
    decide
  have htie : ColumnStats.ofValues (.texts cells) =
      .texts ["Bruno", "Ana", "Caio"] [2, 2, 1] := by
    rw [ColumnStats.ofValues, mostFrequent, htally,
      List.mergeSort_of_pairwise (by decide)]
    rfl
  obtain ⟨rfl, rfl⟩ := ColumnStats.texts.inj (hstats.symm.trans htie)
  exact ⟨htop, hprofile (by simp)⟩

end Dataset

end Chartbook
