import Chartbook.Proofs.Json.RoundTrip
import Chartbook.Proofs.Plan.Codec
import Chartbook.Proofs.Service.Fence

/-!
# Replies that read back

A reply that is the text of a plan or of a classification is decoded as exactly
that plan or classification, whichever form the text has and whether or not it
stands in a fence.
-/

namespace Chartbook

open Json

/-! ## Classifications as JSON -/

namespace ColumnClass

private theorem ofLabel_text (t : Dtype) : Dtype.ofLabel t.text = t := by
  cases t <;> decide +kernel

theorem ofJson?_toJson (c : ColumnClass) : ofJson? c.toJson = some c := by
  rw [ofJson?, toJson, fields?_of_nodup (by simp)]
  simp [List.lookup_cons, required, text?, withDefault, Dtype.ofJson?,
    ofLabel_text, optional_optionalText]

theorem isExact_toJson (c : ColumnClass) : c.toJson.IsExact :=
  isExact_object (by simp [isExact_text, isExact_optionalText])

def replyToJson (columns : List ColumnClass) : Json :=
  .object [("columns", .array (columns.map toJson))]

theorem replyOfJson?_replyToJson (columns : List ColumnClass) :
    replyOfJson? (replyToJson columns) = some columns := by
  have hcolumns := list?_written ofJson?_toJson columns
  rw [replyOfJson?, replyToJson, fields?_of_nodup (by simp)]
  simp [required, hcolumns]

theorem isExact_replyToJson (columns : List ColumnClass) :
    (replyToJson columns).IsExact := by
  have hcolumns := isExact_array <|
    List.forall_mem_map.mpr fun c (_ : c ∈ columns) => c.isExact_toJson
  exact isExact_object (by simp [hcolumns])

end ColumnClass

/-! ## Texts of objects -/

namespace Reply

private theorem exists_compactMembers_eq (ms : List (String × Json)) :
    ∃ m, compactMembers ms = m ++ ['\x7d'] := by
  induction ms with
  | nil => exact ⟨[], rfl⟩
  | cons member ms ih =>
      obtain ⟨k, v⟩ := member
      obtain ⟨m, hm⟩ := ih
      refine ⟨',' :: quoted k ++ ':' :: compact v ++ m, ?_⟩
      simp [compactMembers, hm]

private theorem exists_indentedMembers_eq (level : Nat)
    (ms : List (String × Json)) :
    ∃ m, indentedMembers level ms = m ++ ['\x7d'] := by
  induction ms with
  | nil => exact ⟨newLine level, rfl⟩
  | cons member ms ih =>
      obtain ⟨k, v⟩ := member
      obtain ⟨m, hm⟩ := ih
      refine ⟨',' :: newLine (level + 1) ++ quoted k ++
        ':' :: ' ' :: indented (level + 1) v ++ m, ?_⟩
      simp [indentedMembers, hm]

private theorem isBraced_compact (ms : List (String × Json)) :
    IsBraced (compact (.object ms)) := by
  cases ms with
  | nil => exact ⟨[], rfl⟩
  | cons member ms =>
      obtain ⟨k, v⟩ := member
      obtain ⟨m, hm⟩ := exists_compactMembers_eq ms
      refine ⟨quoted k ++ ':' :: compact v ++ m, ?_⟩
      rw [compact, hm]
      simp

private theorem isBraced_indented (level : Nat) (ms : List (String × Json)) :
    IsBraced (indented level (.object ms)) := by
  cases ms with
  | nil => exact ⟨[], rfl⟩
  | cons member ms =>
      obtain ⟨k, v⟩ := member
      obtain ⟨m, hm⟩ := exists_indentedMembers_eq level ms
      refine ⟨newLine (level + 1) ++ quoted k ++
        ':' :: ' ' :: indented (level + 1) v ++ m, ?_⟩
      rw [indented, hm]
      simp

/-! ## Replies -/

/-- A reply that is the text of a value, compact or indented. -/
def IsWritten (v : Json) (reply : String) : Prop :=
  Carries v.compact reply.toList ∨ Carries (v.indented 0) reply.toList

private theorem decode_of_isWritten {α : Type} {read : Json → Option α}
    {members : List (String × Json)} {reply : String} {a : α}
    (hexact : (object members).IsExact) (hread : read (object members) = some a)
    (h : IsWritten (object members) reply) : decode read reply = .ok a := by
  have hparsed : ofChars? .quick (unfence reply.toList) =
      some (object members) := by
    rcases h with h | h
    · rw [unfence_of_carries (isBraced_compact members) h]
      exact hexact.ofChars?_compact .quick
    · rw [unfence_of_carries (isBraced_indented 0 members) h]
      exact hexact.ofChars?_indented .quick 0
  exact decode_eq_ok_iff.mpr ⟨_, hparsed, hread⟩

/--
A reply that is the text of a classification or of a plan is decoded as that
classification or plan.  The text may be compact or indented, and it may stand
in a fence with or without the tag for JSON.
-/
theorem decode_written :
    (∀ (columns : List ColumnClass) (reply : String),
      IsWritten (ColumnClass.replyToJson columns) reply →
        Reply.columns reply = .ok columns) ∧
    ∀ (p : Plan) (reply : String), p.Fits → IsWritten p.toJson reply →
      Reply.plan reply = .ok p := by
  constructor
  · intro columns reply h
    exact decode_of_isWritten (ColumnClass.isExact_replyToJson columns)
      (ColumnClass.replyOfJson?_replyToJson columns) h
  · intro p reply hfits h
    exact decode_of_isWritten (Plan.isExact_toJson hfits) p.ofJson?_toJson h

theorem decode_written_fenced :
    let columns : List ColumnClass := [
      { name := "\x60\x60\x60", dtype := .percent, format := some "null" }]
    let p : Plan := { charts := [{
      kind := "bar", title := "\x60\x60\x60json \"\\\x01é"
      xKey := some "", topN := some 0xFFFFFFFFFFFFFFFF }] }
    let bare := (ColumnClass.replyToJson columns).render
    let fenced := String.ofList ([' '] ++ (fence ++ (['J', 's', 'O', 'n'] ++
      (['\n'] ++ p.toJson.indented 0 ++ ['\n'])) ++ fence) ++ ['\n'])
    (IsWritten (ColumnClass.replyToJson columns) bare ∧
      Reply.columns bare = .ok columns) ∧
    p.Fits ∧ IsWritten p.toJson fenced ∧ Reply.plan fenced = .ok p := by
  intro columns p bare fenced
  have hbare : IsWritten (ColumnClass.replyToJson columns) bare := by
    have hcarries := @Carries.bare (compact (ColumnClass.replyToJson columns))
      [] [] nofun nofun
    rw [List.nil_append, List.append_nil] at hcarries
    left
    change Carries _ (String.ofList _).toList
    rwa [String.toList_ofList]
  have hfits : p.Fits := by
    intro chart hchart n hn
    cases List.mem_singleton.mp hchart
    cases hn
    decide
  have hblank : ∀ c, Text.isBlank c = true → Text.AllBlank [c] :=
    fun c hc => List.forall_mem_singleton.mpr hc
  have hfenced : IsWritten p.toJson fenced := by
    right
    rw [String.toList_ofList]
    exact .fenced (hblank ' ' rfl) (.inr rfl) (hblank '\n' rfl)
      (hblank '\n' rfl) (hblank '\n' rfl)
  exact ⟨⟨hbare, decode_written.1 columns bare hbare⟩, hfits, hfenced,
    decode_written.2 p fenced hfits hfenced⟩

end Reply

end Chartbook
