import Chartbook.Proofs.Kpi.Sandbox

/-!
# Calls on columns

A call of a function on columns that exist has the value of the function, both
in the text in which it is usually written and in all others.
-/

namespace Chartbook

/-! ## The text of a call -/

namespace Expression

def callText (function : String) (names : List String) : String :=
  function ++ "(" ++ ", ".intercalate names ++ ")"

private theorem intercalate_comma_space (first : List Char)
    (rest : List (List Char)) :
    [',', ' '].intercalate (first :: rest) =
      [','].intercalate (first :: rest.map (' ' :: ·)) := by
  induction rest generalizing first with
  | nil => simp
  | cons second rest ih =>
      rw [List.map_cons, List.intercalate_cons_cons,
        List.intercalate_cons_cons, List.intercalate_cons_cons_left, ih]
      simp

private theorem padded_of_writable {opening : List Char} {name : String}
    (hopening : Text.AllBlank opening) (h : Writable name) :
    Padded (opening ++ name.toList) name := by
  have hpadded := @Padded.mk _ [] _ hopening nofun h
  rwa [List.append_nil] at hpadded

private theorem exists_spelling_of_parse {source : String} {e : Expression}
    (h : parse source = .ok e) :
    ∃ p : Spelling, p.text = source.toList ∧ p.expression = e := by
  unfold parse at h
  split at h
  · rename_i he
    cases h
    exact exists_spelling he
  · cases h

private theorem parse_callText {function : String} {names : List String}
    (hne : function.toList ≠ [])
    (hletters : function.toList.all isNameChar = true) (hnames : names ≠ [])
    (hwritable : ∀ name ∈ names, Writable name) :
    parse (callText function names) =
      .ok ⟨String.ofList (Text.asciiLower function.toList), names⟩ := by
  have hnil : Text.AllBlank [] := nofun
  have hspace : Text.AllBlank [' '] := List.all_eq_true.mp rfl
  obtain ⟨first, rest, rfl⟩ := List.exists_cons_of_ne_nil hnames
  obtain ⟨hfirst, hrest⟩ := List.forall_mem_cons.mp hwritable
  have hpadded : List.Forall₂ Padded
      (first.toList :: (rest.map String.toList).map (' ' :: ·))
      (first :: rest) := by
    refine .cons (padded_of_writable hnil hfirst) ?_
    rw [List.map_map, List.forall₂_map_left_iff, List.forall₂_same]
    exact fun name hname => padded_of_writable hspace (hrest name hname)
  obtain ⟨p, htext, hcall⟩ := exists_spelling_columns hnil hnil hnil hne
    (fun c hc => isNameChar_iff.mp (List.all_eq_true.mp hletters c hc))
    (List.cons_ne_nil _ _) hpadded
  rw [← hcall]
  apply parse_of_spelling
  rw [htext, ← intercalate_comma_space]
  simp [callText]

end Expression

/-! ## Values of calls -/

namespace Dataset

/--
A function has a value on the columns of some names, and every expression that
calls it with them has that value.
-/
structure Gives (d : Dataset) (f : KpiFunction) (names : List String)
    (x : Float) : Prop where
  columns : ∃ args, names.map d.column? = args.map some ∧
    f.value? d args = some x
  parsed : ∀ source, Expression.parse source = .ok ⟨f.name, names⟩ →
    d.evaluate source = .ok x
  written : (∀ name ∈ names, Expression.Writable name) →
    d.evaluate (Expression.callText f.name names) = .ok x

variable {d : Dataset} {f : KpiFunction} {names : List String}
  {args : List Column} {x : Float}

private theorem evaluate_of_parse {source : String}
    (hparse : Expression.parse source = .ok ⟨f.name, names⟩)
    (hlength : names.length = f.arity)
    (hargs : names.map d.column? = args.map some)
    (hvalue : f.value? d args = some x) : d.evaluate source = .ok x := by
  obtain ⟨p, hp, hcall⟩ := Expression.exists_spelling_of_parse hparse
  have hcolumns : ∀ a ∈ names, d.contains a = true := by
    intro a ha
    have hmem : d.column? a ∈ args.map some :=
      hargs ▸ List.mem_map_of_mem ha
    obtain ⟨c, -, hc⟩ := List.mem_map.mp hmem
    simp [contains, ← hc]
  have hfound : names.filterMap d.column? = args := by
    calc names.filterMap d.column?
        = (names.map d.column?).filterMap id := by
          rw [List.filterMap_map]
          rfl
      _ = args := by
          rw [hargs, List.filterMap_map]
          exact List.filterMap_some
  obtain ⟨x', hevaluate, hvalue'⟩ := d.evaluate_of_contains hp
    (by rw [hcall]) (by rw [hcall, hlength]) (by rwa [hcall])
  rw [hcall, hfound, hvalue, Option.some.injEq] at hvalue'
  rw [hevaluate, hvalue']

theorem gives_of_columns (hlength : names.length = f.arity)
    (hargs : names.map d.column? = args.map some)
    (hvalue : f.value? d args = some x) : d.Gives f names x := by
  have hparsed : ∀ source, Expression.parse source = .ok ⟨f.name, names⟩ →
      d.evaluate source = .ok x :=
    fun source hparse => evaluate_of_parse hparse hlength hargs hvalue
  refine ⟨⟨args, hargs, hvalue⟩, hparsed, fun hwritable => hparsed _ ?_⟩
  have hnames : names ≠ [] := by
    rintro rfl
    cases f <;> contradiction
  have hname : f.name.toList ≠ [] ∧ f.name.toList.all Expression.isNameChar ∧
      String.ofList (Text.asciiLower f.name.toList) = f.name := by
    cases f <;> decide
  obtain ⟨hne, hletters, hlower⟩ := hname
  rw [Expression.parse_callText hne hletters hnames hwritable, hlower]

end Dataset

end Chartbook
