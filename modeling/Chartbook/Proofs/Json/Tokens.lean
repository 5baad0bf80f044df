import Chartbook.Proofs.Json.Numerals
import Chartbook.Proofs.Json.Real

/-!
# Tokens of documents

The scanner finds in a document exactly the tokens of its value, in the compact
form as well as in the indented one.
-/

namespace Chartbook.Json

variable {rounding : Rounding}

/-! ## Runs over strings -/

private theorem run_unit {cs : List Char} {ns : List Nat}
    (h : cs.map hexDigit? = ns.map some) (hne : cs ≠ []) (done : List Token)
    (d : Draft) (value : Nat) (rest : List Char) :
    Scan.run rounding done (.unit d value cs.length) (cs ++ rest) =
      Scan.run rounding done
        (.text (d.addUnit (ns.foldl (fun v n => 16 * v + n) value))) rest := by
  induction cs generalizing ns value with
  | nil => contradiction
  | cons c cs ih =>
      obtain ⟨n, ns, rfl⟩ : ∃ n ns', ns = n :: ns' := by
        cases ns with
        | nil => contradiction
        | cons n ns => exact ⟨n, ns, rfl⟩
      obtain ⟨hc, hcs⟩ := List.cons.inj h
      rw [List.cons_append, Scan.run, Scan.step, hc]
      cases cs with
      | nil =>
          obtain rfl : ns = [] := List.map_eq_nil_iff.mp hcs.symm
          rfl
      | cons c' cs =>
          rw [List.foldl_cons, ← ih hcs (List.cons_ne_nil _ _)]
          rfl

private theorem map_hexDigit?_hexDigits :
    (∀ n < 0x10, (hexDigits n).map hexDigit? = [n].map some) ∧
      ∀ n < 0x20, 0x10 ≤ n →
        (hexDigits n).map hexDigit? = [1, n - 0x10].map some := by
  decide

/-- A character is written as it is, or with an escape by name or number. -/
inductive Escaped (c : Char) : List Char → Prop where
  | plain (hquote : c ≠ '"') (hslash : c ≠ '\\')
      (hcontrol : 0x20 ≤ c.toNat) : Escaped c [c]
  | named {name : Char} (hname : name ≠ 'u')
      (h : escapes.lookup name = some c) : Escaped c ['\\', name]
  | numbered {cs : List Char} {ns : List Nat}
      (hdigits : cs.map hexDigit? = ns.map some) (hlength : cs.length = 4)
      (hvalue : ns.foldl (fun v n => 16 * v + n) 0 = c.toNat)
      (hcontrol : c.toNat < 0x20) : Escaped c ('\\' :: 'u' :: cs)

private theorem escaped_escapeChar (c : Char) : Escaped c (escapeChar c) := by
  obtain ⟨hlow, hhigh⟩ := map_hexDigit?_hexDigits
  rw [escapeChar]
  iterate 7
    split
    · rename_i h
      rw [h]
      exact .named (by decide) rfl
  split
  · rename_i hone
    have hdigits : (['0', '0', '0'] ++ hexDigits c.toNat).map hexDigit? =
        [0, 0, 0, c.toNat].map some := by
      rw [List.map_append, hlow _ hone]
      rfl
    exact .numbered hdigits (by simpa using congrArg List.length hdigits)
      (by simp) (Nat.lt_trans hone (by decide))
  · rename_i hone
    split
    · rename_i htwo
      have hdigits : (['0', '0'] ++ hexDigits c.toNat).map hexDigit? =
          [0, 0, 1, c.toNat - 0x10].map some := by
        rw [List.map_append, hhigh _ htwo (Nat.not_lt.mp hone)]
        rfl
      exact .numbered hdigits (by simpa using congrArg List.length hdigits)
        (by simp; omega) htwo
    · rename_i hquote hslash _ _ _ _ _ htwo
      exact .plain hquote hslash (Nat.not_lt.mp htwo)

private theorem run_escaped {c : Char} {s : List Char} (h : Escaped c s)
    (done : List Token) (d : Draft) (rest : List Char) :
    Scan.run rounding done (.text d) (s ++ rest) =
      Scan.run rounding done (.text (d.add c)) rest := by
  cases h with
  | plain hquote hslash hcontrol =>
      rw [List.singleton_append, Scan.run, Scan.step, if_neg hquote,
        if_neg hslash, if_neg (Nat.not_lt.mpr hcontrol)]
  | named hname h =>
      have hstep (name : Char) : Scan.step rounding done name (.escape d) =
          if name = 'u' then some (done, .unit d 0 4)
          else (escapes.lookup name).map fun x => (done, .text (d.add x)) :=
        rfl
      change Scan.run rounding done (.escape d) (_ :: rest) = _
      rw [Scan.run, hstep, if_neg hname, h]
      rfl
  | @numbered cs ns hdigits hlength hvalue hcontrol =>
      have hne : cs ≠ [] := by
        rintro rfl
        contradiction
      have hrun := @run_unit rounding _ _ hdigits hne done d 0 rest
      rw [hlength, hvalue, Draft.addUnit, if_neg (by omega),
        if_neg (by omega), Char.ofNat_toNat] at hrun
      exact hrun

private theorem run_flatMap_escapeChar (done : List Token) (d : Draft)
    (s rest : List Char) :
    Scan.run rounding done (.text d) (s.flatMap escapeChar ++ rest) =
      Scan.run rounding done (.text (s.foldl Draft.add d)) rest := by
  induction s generalizing d with
  | nil => rfl
  | cons c s ih =>
      rw [List.flatMap_cons, List.append_assoc,
        run_escaped (escaped_escapeChar c), ih, List.foldl_cons]

theorem foldl_add (s chars : List Char) :
    s.foldl Draft.add { chars } = { chars := s.reverse ++ chars } := by
  induction s generalizing chars with
  | nil => rfl
  | cons c s ih =>
      rw [List.foldl_cons, List.reverse_cons, List.append_assoc]
      exact ih (c :: chars)

theorem run_quoted (done : List Token) (s : String) (rest : List Char) :
    Scan.run rounding done .between (quoted s ++ rest) =
      Scan.run rounding (.text (some s) :: done) .between rest := by
  have hfinish : (s.toList.foldl Draft.add {}).finish = some s := by
    rw [foldl_add, List.append_nil]
    simp [Draft.finish]
  have hopen : Scan.run rounding done .between (quoted s ++ rest) =
      Scan.run rounding done (.text {})
        (s.toList.flatMap escapeChar ++ '"' :: rest) := by
    rw [quoted, List.cons_append, List.cons_append, List.append_assoc]
    rfl
  rw [hopen, run_flatMap_escapeChar, ← hfinish]
  rfl

/-! ## Runs over words and numbers -/

def EndsToken (s : List Char) : Prop :=
  ∀ c ∈ s.head?, isLetter c = false ∧ isNumberChar c = false

section Ends

variable {rest : List Char} (hends : EndsToken rest) {done done' : List Token}
include hends

private theorem run_word_ends {letters : List Char}
    (h : (Scan.word letters).finish rounding done = some done') :
    Scan.run rounding done (.word letters) rest =
      Scan.run rounding done' .between rest := by
  cases rest with
  | nil => rw [Scan.run, h, Scan.run, Scan.finish]
  | cons c rest =>
      rw [Scan.run, Scan.step, if_neg (by simp [(hends c rfl).1]), h]
      rfl

private theorem run_number_ends {chars : List Char}
    (h : (Scan.number chars).finish rounding done = some done') :
    Scan.run rounding done (.number chars) rest =
      Scan.run rounding done' .between rest := by
  cases rest with
  | nil => rw [Scan.run, h, Scan.run, Scan.finish]
  | cons c rest =>
      rw [Scan.run, Scan.step, if_neg (by simp [(hends c rfl).2]), h]
      rfl

theorem run_word {w : List Char} {t : Token} (h : Token.word? w = some t)
    (done : List Token) :
    Scan.run rounding done .between (w ++ rest) =
      Scan.run rounding (t :: done) .between rest := by
  have hfinish :
      (Scan.word w.reverse).finish rounding done = some (t :: done) := by
    rw [Scan.finish, List.reverse_reverse, h]
    rfl
  rw [← run_word_ends hends hfinish]
  unfold Token.word? at h
  split at h
  · rename_i hw
    rw [hw]
    rfl
  · split at h
    · rename_i hw
      rw [hw]
      rfl
    · split at h
      · rename_i hw
        rw [hw]
        rfl
      · contradiction

omit hends in
private theorem run_isNumberChar {s : List Char}
    (h : ∀ c ∈ s, isNumberChar c = true) (done : List Token)
    (chars rest : List Char) :
    Scan.run rounding done (.number chars) (s ++ rest) =
      Scan.run rounding done (.number (s.reverse ++ chars)) rest := by
  induction s generalizing chars with
  | nil => rfl
  | cons c s ih =>
      obtain ⟨hc, hs⟩ := List.forall_mem_cons.mp h
      rw [List.cons_append, Scan.run, Scan.step, if_pos hc,
        List.reverse_cons, List.append_assoc]
      exact ih hs (c :: chars)

private theorem run_number {s : List Char} {n : Number}
    (h : Number.ofChars? rounding s = some n)
    (hs : ∀ c ∈ s, isNumberChar c = true) (done : List Token) :
    Scan.run rounding done .between (s ++ rest) =
      Scan.run rounding (.number n :: done) .between rest := by
  have hfinish : (Scan.number s.reverse).finish rounding done =
      some (.number n :: done) := by
    rw [Scan.finish, List.reverse_reverse, h]
    rfl
  rw [← run_number_ends hends hfinish]
  obtain ⟨c, s, rfl, hhead⟩ := Number.exists_head_of_ofChars? h
  obtain ⟨hc, hs⟩ := List.forall_mem_cons.mp hs
  have hstart : Scan.start done c = some (done, .number [c]) := by
    rcases hhead with rfl | hdigit
    · rfl
    · have hrange := Chartbook.Number.toNat_of_isDigit hdigit
      have hne : ∀ c' : Char, c'.toNat < 48 → c ≠ c' := by
        rintro _ hlt rfl
        omega
      have hspace : isSpace c = false := by
        simp [isSpace, hne]
      have hletter : isLetter c = false := by
        rw [isLetter, Bool.and_eq_false_iff, decide_eq_false_iff_not]
        left
        rw [Char.le_def, UInt32.le_iff_toNat_le]
        exact Nat.not_le.mpr (Nat.lt_of_le_of_lt hrange.2 (by decide))
      rw [Scan.start, if_neg (by simp [hspace]), if_neg (hne _ (by decide)),
        if_neg (by simp [hletter]), if_pos hc]
  rw [List.cons_append, Scan.run, Scan.step, hstart, List.reverse_cons]
  exact run_isNumberChar hs done [c] rest

end Ends

/-! ## Texts that are spelled by tokens -/

/-- A text is made of white space and of the spellings of tokens. -/
inductive Spells (rounding : Rounding) : List Char → List Token → Prop where
  | nil : Spells rounding [] []
  | space {c : Char} {s : List Char} {ts : List Token}
      (hc : isSpace c = true) (h : Spells rounding s ts) :
      Spells rounding (c :: s) ts
  | mark {c : Char} {t : Token} {s : List Char} {ts : List Token}
      (hc : Token.punctuation? c = some t) (h : Spells rounding s ts) :
      Spells rounding (c :: s) (t :: ts)
  | text (k : String) {s : List Char} {ts : List Token}
      (h : Spells rounding s ts) :
      Spells rounding (quoted k ++ s) (.text (some k) :: ts)
  | word {w : List Char} {t : Token} {s : List Char} {ts : List Token}
      (hw : Token.word? w = some t) (hends : EndsToken s)
      (h : Spells rounding s ts) : Spells rounding (w ++ s) (t :: ts)
  | number {w : List Char} {n : Number} {s : List Char} {ts : List Token}
      (hw : Number.ofChars? rounding w = some n)
      (hchars : ∀ c ∈ w, isNumberChar c = true) (hends : EndsToken s)
      (h : Spells rounding s ts) :
      Spells rounding (w ++ s) (.number n :: ts)

private theorem start_of_punctuation? {c : Char} {t : Token}
    (h : Token.punctuation? c = some t) (done : List Token) :
    Scan.start done c = some (t :: done, .between) := by
  rw [Token.punctuation?] at h
  iterate 6
    split at h
    · rename_i hc
      cases h
      rw [hc]
      rfl
  contradiction

private theorem run_of_spells {s : List Char} {ts : List Token}
    (h : Spells rounding s ts) (done : List Token) :
    Scan.run rounding done .between s = some (done.reverse ++ ts) := by
  induction h generalizing done with
  | nil =>
      rw [List.append_nil]
      rfl
  | space hc h ih =>
      rw [Scan.run, Scan.step, Scan.start, if_pos hc]
      exact ih done
  | mark hc h ih =>
      rw [Scan.run, Scan.step, start_of_punctuation? hc]
      exact (ih _).trans (by simp)
  | text k h ih =>
      rw [run_quoted, ih]
      simp
  | word hw hends h ih =>
      rw [run_word hends hw, ih]
      simp
  | number hw hchars hends h ih =>
      rw [run_number hends hw hchars, ih]
      simp

theorem tokens?_of_spells {s : List Char} {ts : List Token}
    (h : Spells rounding s ts) : tokens? rounding s = some ts :=
  run_of_spells h []

/-! ## Tokens of values -/

def Number.token (rounding : Rounding) : Number → Token
  | real x =>
      if x.isFinite then .number (real (rounding.reread x)) else .null
  | n => .number n

mutual

def tokens (rounding : Rounding) : Json → List Token
  | null | illFormed => [.null]
  | bool b => [.bool b]
  | number n => [n.token rounding]
  | text s => [.text (some s)]
  | array [] => [.openArray, .closeArray]
  | array (v :: vs) =>
      .openArray :: tokens rounding v ++ tokensOfItems rounding vs
  | object [] => [.openObject, .closeObject]
  | object ((k, v) :: ms) =>
      .openObject :: .text (some k) :: .colon :: tokens rounding v ++
        tokensOfMembers rounding ms

def tokensOfItems (rounding : Rounding) : List Json → List Token
  | [] => [.closeArray]
  | v :: vs => .comma :: tokens rounding v ++ tokensOfItems rounding vs

def tokensOfMembers (rounding : Rounding) : List (String × Json) → List Token
  | [] => [.closeObject]
  | (k, v) :: ms =>
      .comma :: .text (some k) :: .colon :: tokens rounding v ++
        tokensOfMembers rounding ms

end

def Number.InRange : Number → Prop
  | natural n => n < 0x10000000000000000
  | negative n => 1 ≤ n ∧ n ≤ 0x8000000000000000
  | real _ => True

mutual

def InRange : Json → Prop
  | number n => n.InRange
  | array items => ItemsInRange items
  | object members => MembersInRange members
  | _ => True

def ItemsInRange : List Json → Prop
  | [] => True
  | v :: vs => InRange v ∧ ItemsInRange vs

def MembersInRange : List (String × Json) → Prop
  | [] => True
  | (_, v) :: ms => InRange v ∧ MembersInRange ms

end

theorem isNumberChar_of_isRealChar {c : Char} (h : isRealChar c = true) :
    isNumberChar c = true := by
  simp only [isRealChar, isNumberChar, Bool.or_eq_true] at h ⊢
  tauto

private theorem isNumberChar_of_mem_digits {c : Char} {n : Nat}
    (h : c ∈ Chartbook.Number.digits n) : isNumberChar c = true :=
  isNumberChar_of_isRealChar
    (List.all_eq_true.mp (all_isRealChar_digits n) c h)

theorem spells_number {n : Number} (h : n.InRange) {s : List Char}
    {ts : List Token} (hends : EndsToken s) (hs : Spells rounding s ts) :
    Spells rounding (n.chars ++ s) (n.token rounding :: ts) := by
  cases n with
  | natural n =>
      exact .number (Number.ofChars?_natural h)
        (fun _ => isNumberChar_of_mem_digits) hends hs
  | negative n =>
      exact .number (Number.ofChars?_negative h)
        (List.forall_mem_cons.mpr
          ⟨rfl, fun _ => isNumberChar_of_mem_digits⟩) hends hs
  | real x =>
      rw [Number.token]
      split
      · rename_i hx
        have hchars := all_isRealChar_realChars
          (Chartbook.Number.isFinite_iff.mp hx)
        exact .number (Number.ofChars?_realChars hx rounding)
          (fun c hc => isNumberChar_of_isRealChar
            (List.all_eq_true.mp hchars c hc)) hends hs
      · rename_i hx
        have hnull : realChars x = ['n', 'u', 'l', 'l'] := by
          refine (realChars_eq_null_iff x).mpr (Nat.le_of_not_lt fun hlt => ?_)
          exact hx (Chartbook.Number.isFinite_iff.mpr hlt)
        rw [Number.chars, hnull]
        exact .word rfl hends hs

/-! ## The compact form -/

theorem endsToken_cons {c : Char} (hletter : isLetter c = false)
    (hnumber : isNumberChar c = false) (s : List Char) :
    EndsToken (c :: s) := by
  rintro _ ⟨⟩
  exact ⟨hletter, hnumber⟩

theorem endsToken_compactItems (vs : List Json) (s : List Char) :
    EndsToken (compactItems vs ++ s) := by
  cases vs <;> exact endsToken_cons rfl rfl _

theorem endsToken_compactMembers (ms : List (String × Json))
    (s : List Char) : EndsToken (compactMembers ms ++ s) := by
  cases ms <;> exact endsToken_cons rfl rfl _

mutual

theorem spells_compact {v : Json} (h : v.InRange) {s : List Char}
    {ts : List Token} (hends : EndsToken s) (hs : Spells rounding s ts) :
    Spells rounding (compact v ++ s) (tokens rounding v ++ ts) := by
  cases v with
  | null => exact .word rfl hends hs
  | illFormed => exact .word rfl hends hs
  | bool b => cases b <;> exact .word rfl hends hs
  | number n => exact spells_number h hends hs
  | text k => exact .text k hs
  | array items =>
      cases items with
      | nil => exact .mark rfl (.mark rfl hs)
      | cons v vs =>
          have hitems := spells_compactItems h.2 hs
          have hv := spells_compact h.1 (endsToken_compactItems vs s) hitems
          simp only [compact, tokens, List.cons_append, List.append_assoc]
          exact .mark rfl hv
  | object members =>
      cases members with
      | nil => exact .mark rfl (.mark rfl hs)
      | cons m ms =>
          obtain ⟨k, v⟩ := m
          have hmembers := spells_compactMembers h.2 hs
          have hv := spells_compact h.1 (endsToken_compactMembers ms s) hmembers
          simp only [compact, tokens, List.cons_append, List.append_assoc]
          exact .mark rfl (.text k (.mark rfl hv))

private theorem spells_compactItems {vs : List Json} (h : ItemsInRange vs)
    {s : List Char} {ts : List Token} (hs : Spells rounding s ts) :
    Spells rounding (compactItems vs ++ s)
      (tokensOfItems rounding vs ++ ts) := by
  cases vs with
  | nil => exact .mark rfl hs
  | cons v vs =>
      have hitems := spells_compactItems h.2 hs
      have hv := spells_compact h.1 (endsToken_compactItems vs s) hitems
      simp only [compactItems, tokensOfItems, List.cons_append,
        List.append_assoc]
      exact .mark rfl hv

private theorem spells_compactMembers {ms : List (String × Json)}
    (h : MembersInRange ms) {s : List Char} {ts : List Token}
    (hs : Spells rounding s ts) :
    Spells rounding (compactMembers ms ++ s)
      (tokensOfMembers rounding ms ++ ts) := by
  cases ms with
  | nil => exact .mark rfl hs
  | cons m ms =>
      obtain ⟨k, v⟩ := m
      have hmembers := spells_compactMembers h.2 hs
      have hv := spells_compact h.1 (endsToken_compactMembers ms s) hmembers
      simp only [compactMembers, tokensOfMembers, List.cons_append,
        List.append_assoc]
      exact .mark rfl (.text k (.mark rfl hv))

end

/-! ## The indented form -/

theorem spells_newLine (level : Nat) {s : List Char} {ts : List Token}
    (hs : Spells rounding s ts) : Spells rounding (newLine level ++ s) ts := by
  have hspaces (n : Nat) : Spells rounding (List.replicate n ' ' ++ s) ts := by
    induction n with
    | zero => exact hs
    | succ n ih =>
        rw [List.replicate_succ, List.cons_append]
        exact .space rfl ih
  exact .space rfl (hspaces (2 * level))

theorem endsToken_indentedItems (level : Nat) (vs : List Json)
    (s : List Char) : EndsToken (indentedItems level vs ++ s) := by
  cases vs <;> exact endsToken_cons rfl rfl _

theorem endsToken_indentedMembers (level : Nat) (ms : List (String × Json))
    (s : List Char) : EndsToken (indentedMembers level ms ++ s) := by
  cases ms <;> exact endsToken_cons rfl rfl _

mutual

theorem spells_indented (level : Nat) {v : Json} (h : v.InRange)
    {s : List Char} {ts : List Token} (hends : EndsToken s)
    (hs : Spells rounding s ts) :
    Spells rounding (indented level v ++ s) (tokens rounding v ++ ts) := by
  cases v with
  | null => exact .word rfl hends hs
  | illFormed => exact .word rfl hends hs
  | bool b => cases b <;> exact .word rfl hends hs
  | number n => exact spells_number h hends hs
  | text k => exact .text k hs
  | array items =>
      cases items with
      | nil => exact .mark rfl (.mark rfl hs)
      | cons v vs =>
          have hitems := spells_indentedItems level h.2 hs
          have hv := spells_indented (level + 1) h.1
            (endsToken_indentedItems level vs s) hitems
          simp only [indented, tokens, List.cons_append, List.append_assoc]
          exact .mark rfl (spells_newLine _ hv)
  | object members =>
      cases members with
      | nil => exact .mark rfl (.mark rfl hs)
      | cons m ms =>
          obtain ⟨k, v⟩ := m
          have hmembers := spells_indentedMembers level h.2 hs
          have hv := spells_indented (level + 1) h.1
            (endsToken_indentedMembers level ms s) hmembers
          simp only [indented, tokens, List.cons_append, List.append_assoc]
          exact .mark rfl
            (spells_newLine _ (.text k (.mark rfl (.space rfl hv))))

private theorem spells_indentedItems (level : Nat) {vs : List Json}
    (h : ItemsInRange vs) {s : List Char} {ts : List Token}
    (hs : Spells rounding s ts) :
    Spells rounding (indentedItems level vs ++ s)
      (tokensOfItems rounding vs ++ ts) := by
  cases vs with
  | nil =>
      rw [indentedItems, List.append_assoc]
      exact spells_newLine level (.mark rfl hs)
  | cons v vs =>
      have hitems := spells_indentedItems level h.2 hs
      have hv := spells_indented (level + 1) h.1
        (endsToken_indentedItems level vs s) hitems
      simp only [indentedItems, tokensOfItems, List.cons_append,
        List.append_assoc]
      exact .mark rfl (spells_newLine _ hv)

private theorem spells_indentedMembers (level : Nat) {ms : List (String × Json)}
    (h : MembersInRange ms) {s : List Char} {ts : List Token}
    (hs : Spells rounding s ts) :
    Spells rounding (indentedMembers level ms ++ s)
      (tokensOfMembers rounding ms ++ ts) := by
  cases ms with
  | nil =>
      rw [indentedMembers, List.append_assoc]
      exact spells_newLine level (.mark rfl hs)
  | cons m ms =>
      obtain ⟨k, v⟩ := m
      have hmembers := spells_indentedMembers level h.2 hs
      have hv := spells_indented (level + 1) h.1
        (endsToken_indentedMembers level ms s) hmembers
      simp only [indentedMembers, tokensOfMembers, List.cons_append,
        List.append_assoc]
      exact .mark rfl
        (spells_newLine _ (.text k (.mark rfl (.space rfl hv))))

end

/-! ## Documents -/

theorem endsToken_nil : EndsToken [] := nofun

theorem tokens?_compact {v : Json} (h : v.InRange) :
    tokens? rounding v.compact = some (v.tokens rounding) := by
  have hspells := @spells_compact rounding v h _ _ endsToken_nil .nil
  rw [List.append_nil, List.append_nil] at hspells
  exact tokens?_of_spells hspells

theorem tokens?_indented {v : Json} (h : v.InRange) (level : Nat) :
    tokens? rounding (v.indented level) = some (v.tokens rounding) := by
  have hspells := @spells_indented rounding level v h _ _ endsToken_nil .nil
  rw [List.append_nil, List.append_nil] at hspells
  exact tokens?_of_spells hspells

end Chartbook.Json
