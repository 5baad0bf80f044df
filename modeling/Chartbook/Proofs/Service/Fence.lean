import Chartbook.Proofs.Text.Blank
import Chartbook.Service.Reply

/-!
# Fences around replies

A fence of three backticks, with or without the tag for JSON, is taken off the
text inside it, and white space at either end is taken off as well.  The ends of
lines keep the fence apart from a text that itself has backticks or the tag at
its ends, so a reply is decoded alike with and without a fence.
-/

namespace Chartbook.Reply

def fence : List Char := List.replicate 3 backtick

def IsTag (tag : List Char) : Prop :=
  tag = [] ∨ Text.asciiLower tag = ['j', 's', 'o', 'n']

theorem IsTag.head?_ne {tag : List Char} (h : IsTag tag) :
    tag.head? ≠ some backtick := by
  rcases h with rfl | h
  · nofun
  · cases tag with
    | nil => nofun
    | cons c tag =>
        rintro ⟨⟩
        exact absurd (List.cons.inj h).1 (by decide)

private theorem dropWhile_fence {s : List Char} (hne : s ≠ [])
    (hhead : s.head? ≠ some backtick) (rest : List Char) :
    (fence ++ (s ++ rest)).dropWhile (· == backtick) = s ++ rest := by
  obtain ⟨c, s, rfl⟩ := List.exists_cons_of_ne_nil hne
  have hc : ¬(c == backtick) = true := by
    simpa using hhead
  rw [List.dropWhile_append_of_pos (by simp [fence]), List.cons_append]
  exact List.dropWhile_cons_of_neg hc

private theorem stripBackticks_fence {s : List Char} (hne : s ≠ [])
    (hhead : s.head? ≠ some backtick) (hlast : s.getLast? ≠ some backtick) :
    stripBackticks (fence ++ s ++ fence) = s := by
  have hreverse : (s ++ fence).reverse = fence ++ (s.reverse ++ []) := by
    rw [List.reverse_append, List.append_nil]
    rfl
  rw [stripBackticks, List.append_assoc, dropWhile_fence hne hhead, hreverse,
    dropWhile_fence (by simpa using hne) (by simpa using hlast),
    List.append_nil, List.reverse_reverse]

private theorem stripTag_append {tag s : List Char} (htag : IsTag tag)
    (hword : Text.asciiLower (s.take 4) ≠ ['j', 's', 'o', 'n']) :
    stripTag (tag ++ s) = s := by
  rcases htag with rfl | htag
  · exact if_neg hword
  · have hlength : tag.length = 4 := by
      simpa [Text.asciiLower] using congrArg List.length htag
    rw [stripTag, ← hlength, List.take_left, List.drop_left, if_pos htag]

theorem unfence_fence {before after tag s : List Char}
    (hbefore : Text.AllBlank before) (hafter : Text.AllBlank after)
    (htag : IsTag tag) (hne : s ≠ []) (hhead : s.head? ≠ some backtick)
    (hlast : s.getLast? ≠ some backtick)
    (hword : Text.asciiLower (s.take 4) ≠ ['j', 's', 'o', 'n']) :
    unfence (before ++ (fence ++ (tag ++ s) ++ fence) ++ after) =
      Text.trim s := by
  have htrim : Text.trim (fence ++ (tag ++ s) ++ fence) =
      fence ++ (tag ++ s) ++ fence := by
    have hends := @Text.trim_cons_concat backtick backtick rfl rfl
      ([backtick, backtick] ++ (tag ++ s) ++ [backtick, backtick])
    simpa [fence] using hends
  have hbodyHead : (tag ++ s).head? ≠ some backtick := by
    cases tag with
    | nil => exact hhead
    | cons c tag => exact htag.head?_ne
  have hbodyLast : (tag ++ s).getLast? ≠ some backtick := by
    rw [List.getLast?_append, Option.or_of_isSome (by simpa using hne)]
    exact hlast
  have hfenced : isFenced (fence ++ (tag ++ s) ++ fence) = true := rfl
  rw [unfence, Text.trim_append hbefore hafter, htrim, if_pos hfenced,
    stripBackticks_fence (by simp [hne]) hbodyHead hbodyLast,
    stripTag_append htag hword]

theorem unfence_bare {before after s : List Char}
    (hbefore : Text.AllBlank before) (hafter : Text.AllBlank after)
    (h : isFenced (Text.trim s) = false) :
    unfence (before ++ s ++ after) = Text.trim s := by
  have hbare : ¬isFenced (Text.trim s) = true := by
    rw [h]
    exact Bool.false_ne_true
  rw [unfence, Text.trim_append hbefore hafter, if_neg hbare]

/-! ## Texts in braces -/

def IsBraced (s : List Char) : Prop := ∃ m, s = '\x7b' :: m ++ ['\x7d']

/--
A text as it stands in a reply: bare, or in a fence with or without a tag.
There may be white space around it, inside the fence and outside.
-/
inductive Carries (s : List Char) : List Char → Prop where
  | bare {before after : List Char} (hbefore : Text.AllBlank before)
      (hafter : Text.AllBlank after) : Carries s (before ++ s ++ after)
  | fenced {before tag opening closing after : List Char}
      (hbefore : Text.AllBlank before) (htag : IsTag tag)
      (hopening : Text.AllBlank opening) (hclosing : Text.AllBlank closing)
      (hafter : Text.AllBlank after) :
      Carries s (before ++
        (fence ++ (tag ++ (opening ++ s ++ closing)) ++ fence) ++ after)

section Braced

variable {s opening closing : List Char} (hs : IsBraced s)
  (hopening : Text.AllBlank opening) (hclosing : Text.AllBlank closing)
include hs

private theorem trim_of_isBraced : Text.trim s = s := by
  obtain ⟨m, rfl⟩ := hs
  exact Text.trim_cons_concat rfl rfl m

include hopening in
private theorem exists_head_of_isBraced :
    ∃ c rest, opening ++ s ++ closing = c :: rest ∧ c ≠ backtick ∧
      c.toLower ≠ 'j' := by
  obtain ⟨m, rfl⟩ := hs
  cases opening with
  | nil => exact ⟨_, _, rfl, by decide, by decide⟩
  | cons c opening =>
      have hc := hopening c (List.mem_cons_self ..)
      refine ⟨c, _, rfl, ?_, ?_⟩
      · rintro rfl
        contradiction
      · rw [Text.toLower_of_isBlank hc]
        rintro rfl
        contradiction

include hclosing in
private theorem getLast?_of_isBraced :
    (opening ++ s ++ closing).getLast? ≠ some backtick := by
  obtain ⟨m, rfl⟩ := hs
  rcases List.eq_nil_or_concat closing with rfl | ⟨closing, c, rfl⟩
  · rw [List.append_nil, ← List.append_assoc, List.getLast?_concat]
    decide
  · rw [List.concat_eq_append, ← List.append_assoc, List.getLast?_concat]
    rintro ⟨⟩
    exact absurd (hclosing backtick (by simp)) (by decide)

theorem unfence_of_carries {reply : List Char} (h : Carries s reply) :
    unfence reply = s := by
  have htrim := trim_of_isBraced hs
  cases h with
  | bare hbefore hafter =>
      have hfenced : isFenced (Text.trim s) = false := by
        rw [htrim]
        obtain ⟨m, rfl⟩ := hs
        rfl
      rw [unfence_bare hbefore hafter hfenced, htrim]
  | @fenced before tag opening closing after hbefore htag hopening hclosing
      hafter =>
      obtain ⟨c, rest, heq, hbacktick, hj⟩ :=
        @exists_head_of_isBraced _ _ closing hs hopening
      have hlast := @getLast?_of_isBraced _ opening _ hs hclosing
      rw [unfence_fence hbefore hafter htag]
      · rw [Text.trim_append hopening hclosing, htrim]
      · rw [heq]
        exact List.cons_ne_nil _ _
      · rw [heq]
        simpa using hbacktick
      · exact hlast
      · rw [heq]
        exact fun hword => hj (List.cons.inj hword).1

end Braced

/-! ## Texts on lines of their own -/

/--
A text in a fence, on lines of its own, with or without a tag.  There may be
white space around the fence.
-/
inductive Encloses (s : List Char) : List Char → Prop where
  | lines {before tag after : List Char} (hbefore : Text.AllBlank before)
      (htag : IsTag tag) (hafter : Text.AllBlank after) :
      Encloses s (before ++
        (fence ++ (tag ++ ('\n' :: s ++ ['\n'])) ++ fence) ++ after)

private theorem unfence_of_encloses {s reply : List Char}
    (h : Encloses s reply) :
    unfence reply = Text.trim s := by
  have hlineFeed : Text.AllBlank ['\n'] := List.forall_mem_singleton.mpr rfl
  cases h with
  | lines hbefore htag hafter =>
      have hlast : ('\n' :: s ++ ['\n']).getLast? ≠ some backtick := by
        rw [List.getLast?_concat]
        decide
      have hword : Text.asciiLower (('\n' :: s ++ ['\n']).take 4) ≠
          ['j', 's', 'o', 'n'] := by
        simp [Text.asciiLower]
      have htrim : Text.trim (['\n'] ++ s ++ ['\n']) = Text.trim s :=
        Text.trim_append hlineFeed hlineFeed s
      rw [unfence_fence hbefore hafter htag (by simp) (by simp [backtick])
        hlast hword]
      exact htrim

theorem isFenced_iff {s : List Char} : isFenced s = true ↔ fence <+: s :=
  List.isPrefixOf_iff_prefix

private theorem unfence_eq_trim {s : List Char} (h : ¬fence <+: Text.trim s) :
    unfence s = Text.trim s := by
  rw [unfence, if_neg (mt isFenced_iff.mp h)]

/-! ## Decoded replies -/

section Decode

variable {α : Type} {read : Json → Option α} {a : α} {reply : String}

theorem decode_eq_ok_iff : decode read reply = .ok a ↔
    ∃ v, Json.ofChars? .quick (unfence reply.toList) = some v ∧
      read v = some a := by
  rw [decode]
  cases Json.ofChars? .quick (unfence reply.toList) with
  | none => simp
  | some v =>
      dsimp only
      cases hread : read v <;> simp [hread]

end Decode

/--
A fence changes nothing: the text in it is found as if it stood alone, whatever
it is, and a reply in a fence is decoded exactly if the text alone is, with the
same value.
-/
theorem unfence_transparent {text reply : String}
    (hbare : ¬fence <+: Text.trim text.toList)
    (h : Encloses text.toList reply.toList) :
    unfence reply.toList = unfence text.toList ∧
      unfence text.toList = Text.trim text.toList ∧
      ∀ (α : Type) (read : Json → Option α) (a : α),
        decode read reply = .ok a ↔ decode read text = .ok a := by
  have htext := unfence_eq_trim hbare
  have hreply : unfence reply.toList = unfence text.toList := by
    rw [unfence_of_encloses h, htext]
  refine ⟨hreply, htext, fun α read a => ?_⟩
  rw [decode_eq_ok_iff, decode_eq_ok_iff, hreply]

theorem unfence_transparent_backticks :
    let text := "json \x60\x60\x60"
    let reply := " \x60\x60\x60JSON\njson \x60\x60\x60\n\x60\x60\x60\n"
    ¬fence <+: Text.trim text.toList ∧ Encloses text.toList reply.toList ∧
      unfence reply.toList = text.toList := by
  intro text reply
  have hbare : ¬fence <+: Text.trim text.toList := by decide
  have hencloses : Encloses text.toList reply.toList := by
    have hlines : reply.toList = [' '] ++ (fence ++ (['J', 'S', 'O', 'N'] ++
        ('\n' :: text.toList ++ ['\n'])) ++ fence) ++ ['\n'] := by
      decide
    rw [hlines]
    exact .lines (List.forall_mem_singleton.mpr rfl) (.inr (by decide))
      (List.forall_mem_singleton.mpr rfl)
  obtain ⟨hreply, htext, -⟩ := unfence_transparent hbare hencloses
  have htrim : Text.trim text.toList = text.toList := by decide
  exact ⟨hbare, hencloses, hreply.trans (htext.trans htrim)⟩

end Chartbook.Reply
