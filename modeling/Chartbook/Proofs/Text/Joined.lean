/-!
# Joined texts

What stands in texts joined by a separator, and in the pieces of a text that is
cut at one.  A text is cut in one way only where the first piece cannot go on.
-/

namespace Chartbook.Text

variable {c x : Char} {l : List Char} {ls : List (List Char)}

theorem mem_intercalate_of_mem (hl : l ∈ ls) (hc : c ∈ l) :
    c ∈ [x].intercalate ls := by
  induction ls with
  | nil => contradiction
  | cons first rest ih =>
      cases rest with
      | nil =>
          obtain rfl := List.mem_singleton.mp hl
          simpa using hc
      | cons second rest =>
          rw [List.intercalate_cons_cons, List.append_assoc,
            List.singleton_append]
          rcases List.mem_cons.mp hl with rfl | hl
          · exact List.mem_append_left _ hc
          · exact List.mem_append_right _ (List.mem_cons_of_mem _ (ih hl))

private theorem eq_or_mem_of_mem_intercalate (h : c ∈ [x].intercalate ls) :
    c = x ∨ ∃ l ∈ ls, c ∈ l := by
  induction ls with
  | nil => simp at h
  | cons first rest ih =>
      cases rest with
      | nil => exact .inr ⟨first, by simp, by simpa using h⟩
      | cons second rest =>
          rw [List.intercalate_cons_cons, List.append_assoc,
            List.singleton_append, List.mem_append, List.mem_cons] at h
          rcases h with h | rfl | h
          · exact .inr ⟨first, by simp, h⟩
          · exact .inl rfl
          · rcases ih h with rfl | ⟨l, hl, hc⟩
            · exact .inl rfl
            · exact .inr ⟨l, List.mem_cons_of_mem _ hl, hc⟩

theorem not_mem_intercalate_iff (hne : c ≠ x) :
    c ∉ [x].intercalate ls ↔ ∀ l ∈ ls, c ∉ l := by
  constructor
  · exact fun h l hl hc => h (mem_intercalate_of_mem hl hc)
  · intro h hmem
    rcases eq_or_mem_of_mem_intercalate hmem with heq | ⟨l, hl, hc⟩
    · exact hne heq
    · exact h l hl hc

theorem filter_ne_eq_self {s : List Char} (h : x ∉ s) :
    s.filter (· ≠ x) = s :=
  List.filter_eq_self.mpr fun _ hc =>
    decide_eq_true (ne_of_mem_of_not_mem hc h)

theorem filter_intercalate (h : ∀ l ∈ ls, x ∉ l) :
    ([x].intercalate ls).filter (· ≠ x) = ls.flatten := by
  induction ls with
  | nil => rfl
  | cons first rest ih =>
      obtain ⟨hfirst, hrest⟩ := List.forall_mem_cons.mp h
      cases rest with
      | nil => simpa using filter_ne_eq_self hfirst
      | cons second rest =>
          have hself : [x].filter (· ≠ x) = [] := by simp
          rw [List.intercalate_cons_cons, List.filter_append,
            List.filter_append, filter_ne_eq_self hfirst, hself, ih hrest,
            List.append_nil, ← List.flatten_cons]

theorem not_mem_of_mem_splitOn {s piece : List Char}
    (h : piece ∈ s.splitOn x) : x ∉ piece := by
  induction s generalizing piece with
  | nil =>
      obtain rfl : piece = [] := by simpa using h
      simp
  | cons c s ih =>
      rw [List.splitOn_cons_eq_if_modifyHead] at h
      split at h
      · rcases List.mem_cons.mp h with rfl | h
        · simp
        · exact ih h
      · rename_i hne
        cases hs : s.splitOn x with
        | nil => exact absurd hs (List.splitOn_ne_nil x s)
        | cons first rest =>
            rw [hs] at h ih
            rcases List.mem_cons.mp h with rfl | h
            · have hfirst : x ∉ first := ih (by simp)
              simp only [List.mem_cons, not_or]
              exact ⟨fun heq => hne (by simp [heq]), hfirst⟩
            · exact ih (List.mem_cons_of_mem _ h)

/-! ## Cutting in one way -/

theorem append_inj_of_span {f : Char → Bool} {s s' t t' : List Char}
    (hs : ∀ c ∈ s, f c = true) (hs' : ∀ c ∈ s', f c = true)
    (ht : t.takeWhile f = []) (ht' : t'.takeWhile f = [])
    (h : s ++ t = s' ++ t') : s = s' ∧ t = t' := by
  have htake := congrArg (List.takeWhile f) h
  rw [List.takeWhile_append_of_pos hs, List.takeWhile_append_of_pos hs', ht,
    ht', List.append_nil, List.append_nil] at htake
  exact ⟨htake, List.append_cancel_left (htake ▸ h)⟩

theorem append_cons_inj {s s' t t' : List Char} (hs : x ∉ s) (hs' : x ∉ s')
    (h : s ++ x :: t = s' ++ x :: t') : s = s' ∧ t = t' := by
  have hother {l : List Char} (hl : x ∉ l) : ∀ c ∈ l, decide (c ≠ x) = true :=
    fun c hc => decide_eq_true fun heq => hl (heq ▸ hc)
  obtain ⟨hfirst, hrest⟩ := append_inj_of_span (hother hs) (hother hs')
    (by simp) (by simp) h
  exact ⟨hfirst, (List.cons.inj hrest).2⟩

end Chartbook.Text
