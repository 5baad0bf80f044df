import Chartbook.Kpi.Evaluation
import Chartbook.Proofs.Kpi.Grammar
import Mathlib.Data.List.Basic

/-!
# The sandbox of expressions

What an expression can reach.  Its value, or the reason why it has none, is
settled by its spelling, the table of functions and the columns that it names;
only the growth from month to month sees the dates of the date axis as well.
-/

namespace Chartbook

open Expression (Spelling)

/-! ## The table of functions -/

namespace KpiFunction

theorem ofName?_eq_some_iff {name : String} {f : KpiFunction} :
    ofName? name = some f ↔ f.name = name := by
  constructor
  · intro h
    simpa using List.find?_some h
  · rintro rfl
    cases f <;> rfl

theorem ofName?_eq_none_iff {name : String} :
    ofName? name = none ↔ ∀ f : KpiFunction, f.name ≠ name := by
  constructor
  · intro h f hf
    rw [ofName?_eq_some_iff.mpr hf] at h
    contradiction
  · intro h
    refine Option.eq_none_iff_forall_ne_some.mpr fun f hf => ?_
    exact h f (ofName?_eq_some_iff.mp hf)

theorem exists_value? (f : KpiFunction) (d : Dataset)
    {args : List Dataset.Column} (h : args.length = f.arity) :
    ∃ x, f.value? d args = some x := by
  cases f with
  | attainment => match args, h with | [_, _], _ => exact ⟨_, rfl⟩
  | _ => match args, h with | [_], _ => exact ⟨_, rfl⟩

private theorem present_congr {c c' : Dataset.Column}
    (h : c.values.numeric = c'.values.numeric) : present c = present c' := by
  rw [present, h, present]

theorem value?_congr (f : KpiFunction) {d d' : Dataset}
    {args args' : List Dataset.Column}
    (hargs : args.map (·.values.numeric) = args'.map (·.values.numeric))
    (haxis : f = .growth → d.dateAxis?.bind d.dates? =
      d'.dateAxis?.bind d'.dates?) :
    f.value? d args = f.value? d' args' := by
  match args, args' with
  | [], [] => cases f <;> rfl
  | [c], [c'] =>
      have hc : c.values.numeric = c'.values.numeric := by simpa using hargs
      cases f with
      | growth => simp only [value?, growthOf, haxis rfl, hc]
      | attainment => rfl
      | _ => simp only [value?, present_congr hc]
  | [a, b], [a', b'] =>
      have hab : a.values.numeric = a'.values.numeric ∧
        b.values.numeric = b'.values.numeric := by simpa using hargs
      cases f with
      | attainment =>
          simp only [value?, present_congr hab.1, present_congr hab.2]
      | _ => rfl
  | _ :: _ :: _ :: _, _ :: _ :: _ :: _ => cases f <;> rfl
  | [], _ :: _ | _ :: _, [] => simp at hargs
  | [_], _ :: _ :: _ | _ :: _ :: _, [_] => simp at hargs
  | [_, _], _ :: _ :: _ :: _ | _ :: _ :: _ :: _, [_, _] => simp at hargs

end KpiFunction

namespace Dataset

/-! ## The columns of an expression -/

theorem argumentsOf_cons (d : Dataset) (source name : String)
    (names : List String) :
    d.argumentsOf source (name :: names) =
      match d.column? name with
      | none => .error (.noColumn name source)
      | some c => (d.argumentsOf source names).map (c :: ·) := by
  rw [argumentsOf, List.mapM_cons]
  cases d.column? name with
  | none => rfl
  | some c =>
      change (do let cs ← d.argumentsOf source names; pure (c :: cs)) =
        (d.argumentsOf source names).map (c :: ·)
      cases d.argumentsOf source names <;> rfl

theorem argumentsOf_of_contains (d : Dataset) (source : String)
    {names : List String} (h : ∀ a ∈ names, d.contains a = true) :
    d.argumentsOf source names = .ok (names.filterMap d.column?) := by
  induction names with
  | nil => rfl
  | cons name names ih =>
      obtain ⟨c, hc⟩ := Option.isSome_iff_exists.mp (h name (by simp))
      rw [argumentsOf_cons, ih fun a ha => h a (List.mem_cons_of_mem _ ha),
        List.filterMap_cons, hc]
      rfl

theorem argumentsOf_of_missing (d : Dataset) (source : String)
    {before after : List String} {column : String}
    (hbefore : ∀ a ∈ before, d.contains a = true)
    (hcolumn : d.contains column = false) :
    d.argumentsOf source (before ++ column :: after) =
      .error (.noColumn column source) := by
  induction before with
  | nil =>
      have hnone : d.column? column = none := by
        simpa [contains] using hcolumn
      rw [List.nil_append, argumentsOf_cons, hnone]
  | cons name before ih =>
      obtain ⟨c, hc⟩ := Option.isSome_iff_exists.mp (hbefore name (by simp))
      rw [List.cons_append, argumentsOf_cons, hc,
        ih fun a ha => hbefore a (List.mem_cons_of_mem _ ha)]
      rfl

theorem contains_or_missing (d : Dataset) (names : List String) :
    (∀ a ∈ names, d.contains a = true) ∨
      ∃ before column after, names = before ++ column :: after ∧
        (∀ a ∈ before, d.contains a = true) ∧ d.contains column = false := by
  cases h : names.find? fun a => !d.contains a with
  | none =>
      left
      simpa using h
  | some column =>
      right
      obtain ⟨hcolumn, before, after, rfl, hbefore⟩ :=
        List.find?_eq_some_iff_append.mp h
      exact ⟨before, column, after, rfl, by simpa using hbefore,
        by simpa using hcolumn⟩

/-! ## The ends of an evaluation -/

section Ends

variable (d : Dataset) {source : String} {p : Spelling} {f : KpiFunction}

theorem evaluate_of_no_spelling (h : ∀ p : Spelling, p.text ≠ source.toList) :
    d.evaluate source = .error (.malformed source) := by
  rw [evaluate, Expression.parse_of_no_spelling h]
  rfl

theorem evaluate_of_not_allowed (hp : p.text = source.toList)
    (h : ∀ f : KpiFunction, f.name ≠ p.expression.function) :
    d.evaluate source =
      .error (.notAllowed p.expression.function source) := by
  rw [evaluate, Expression.parse_of_spelling hp]
  simp only [bind, Except.bind, KpiFunction.ofName?_eq_none_iff.mpr h]
  rfl

theorem evaluate_of_arity (hp : p.text = source.toList)
    (hf : f.name = p.expression.function)
    (h : p.expression.args.length ≠ f.arity) :
    d.evaluate source = .error (.arity p.expression.function f.arity
      p.expression.args.length source) := by
  rw [evaluate, Expression.parse_of_spelling hp]
  simp only [bind, Except.bind, KpiFunction.ofName?_eq_some_iff.mpr hf, h,
    ne_eq, not_false_eq_true, if_true]
  rfl

theorem evaluate_of_missing (hp : p.text = source.toList)
    (hf : f.name = p.expression.function)
    (harity : p.expression.args.length = f.arity) {before after : List String}
    {column : String} (hargs : p.expression.args = before ++ column :: after)
    (hbefore : ∀ a ∈ before, d.contains a = true)
    (hcolumn : d.contains column = false) :
    d.evaluate source = .error (.noColumn column source) := by
  rw [evaluate, Expression.parse_of_spelling hp]
  simp only [bind, Except.bind, KpiFunction.ofName?_eq_some_iff.mpr hf, harity,
    ne_eq, not_true_eq_false, if_false]
  rw [hargs, d.argumentsOf_of_missing source hbefore hcolumn]

theorem evaluate_of_contains (hp : p.text = source.toList)
    (hf : f.name = p.expression.function)
    (harity : p.expression.args.length = f.arity)
    (hcolumns : ∀ a ∈ p.expression.args, d.contains a = true) :
    ∃ x, d.evaluate source = .ok x ∧
      f.value? d (p.expression.args.filterMap d.column?) = some x := by
  have hlength : (p.expression.args.filterMap d.column?).length = f.arity := by
    rw [List.filterMap_length_eq_length.mpr hcolumns, harity]
  obtain ⟨x, hx⟩ := f.exists_value? d hlength
  refine ⟨x, ?_, hx⟩
  rw [evaluate, Expression.parse_of_spelling hp]
  simp only [bind, Except.bind, KpiFunction.ofName?_eq_some_iff.mpr hf, harity,
    ne_eq, not_true_eq_false, if_false]
  rw [d.argumentsOf_of_contains source hcolumns]
  simp only [hx]
  rfl

end Ends

/-- The ways in which an evaluation ends, in the order of the checks. -/
inductive EvaluationCases (d : Dataset) (source : String) :
    Except ExpressionError Float → Prop
  | malformed (h : ∀ p : Spelling, p.text ≠ source.toList) :
      EvaluationCases d source (.error (.malformed source))
  | notAllowed (p : Spelling) (hp : p.text = source.toList)
      (h : ∀ f : KpiFunction, f.name ≠ p.expression.function) :
      EvaluationCases d source
        (.error (.notAllowed p.expression.function source))
  | arity (p : Spelling) (f : KpiFunction) (hp : p.text = source.toList)
      (hf : f.name = p.expression.function)
      (h : p.expression.args.length ≠ f.arity) :
      EvaluationCases d source (.error (.arity p.expression.function f.arity
        p.expression.args.length source))
  | noColumn (p : Spelling) (f : KpiFunction) (hp : p.text = source.toList)
      (hf : f.name = p.expression.function)
      (harity : p.expression.args.length = f.arity)
      (before after : List String) (column : String)
      (hargs : p.expression.args = before ++ column :: after)
      (hbefore : ∀ a ∈ before, d.contains a = true)
      (hcolumn : d.contains column = false) :
      EvaluationCases d source (.error (.noColumn column source))
  | value (p : Spelling) (f : KpiFunction) (hp : p.text = source.toList)
      (hf : f.name = p.expression.function)
      (harity : p.expression.args.length = f.arity)
      (hcolumns : ∀ a ∈ p.expression.args, d.contains a = true) (x : Float)
      (hx : f.value? d (p.expression.args.filterMap d.column?) = some x) :
      EvaluationCases d source (.ok x)

theorem evaluate_cases (d : Dataset) (source : String) :
    EvaluationCases d source (d.evaluate source) := by
  by_cases hspelled : ∃ p : Spelling, p.text = source.toList
  · obtain ⟨p, hp⟩ := hspelled
    by_cases hallowed : ∃ f : KpiFunction, f.name = p.expression.function
    · obtain ⟨f, hf⟩ := hallowed
      by_cases harity : p.expression.args.length = f.arity
      · rcases d.contains_or_missing p.expression.args with
          hcolumns | ⟨before, column, after, hargs, hbefore, hcolumn⟩
        · obtain ⟨x, hx, hvalue⟩ := d.evaluate_of_contains hp hf harity hcolumns
          rw [hx]
          exact .value p f hp hf harity hcolumns x hvalue
        · rw [d.evaluate_of_missing hp hf harity hargs hbefore hcolumn]
          exact .noColumn p f hp hf harity before after column hargs hbefore
            hcolumn
      · rw [d.evaluate_of_arity hp hf harity]
        exact .arity p f hp hf harity
    · rw [not_exists] at hallowed
      rw [d.evaluate_of_not_allowed hp hallowed]
      exact .notAllowed p hp hallowed
  · rw [not_exists] at hspelled
    rw [d.evaluate_of_no_spelling hspelled]
    exact .malformed hspelled

theorem evaluate_isOk_iff (d : Dataset) (source : String) :
    (∃ x, d.evaluate source = .ok x) ↔
      ∃ p : Spelling, p.text = source.toList ∧
        ∃ f : KpiFunction, f.name = p.expression.function ∧
          p.expression.args.length = f.arity ∧
          ∀ a ∈ p.expression.args, d.contains a = true := by
  constructor
  · rintro ⟨x, hx⟩
    have hcases := d.evaluate_cases source
    rw [hx] at hcases
    cases hcases with
    | value p f hp hf harity hcolumns =>
        exact ⟨p, hp, f, hf, harity, hcolumns⟩
  · rintro ⟨p, hp, f, hf, harity, hcolumns⟩
    obtain ⟨x, hx, -⟩ := d.evaluate_of_contains hp hf harity hcolumns
    exact ⟨x, hx⟩

/-! ## Two datasets -/

def SameNumbers (d d' : Dataset) (name : String) : Prop :=
  (d.column? name).map (·.values.numeric) =
    (d'.column? name).map (·.values.numeric)

theorem SameNumbers.contains_eq {d d' : Dataset} {name : String}
    (h : d.SameNumbers d' name) : d.contains name = d'.contains name := by
  have hsome := congrArg Option.isSome h
  rwa [Option.isSome_map, Option.isSome_map] at hsome

private theorem numeric_filterMap_column? {d d' : Dataset} {names : List String}
    (h : ∀ a ∈ names, d.SameNumbers d' a) :
    (names.filterMap d.column?).map (·.values.numeric) =
      (names.filterMap d'.column?).map (·.values.numeric) := by
  rw [List.map_filterMap, List.map_filterMap]
  exact List.filterMap_congr h

/-- What `d` may show to the expression is the same as what `d'` shows to it. -/
def SameFor (d d' : Dataset) (e : Expression) : Prop :=
  (∀ a ∈ e.args, d.SameNumbers d' a) ∧
    (e.function = "growth_mom" →
      d.dateAxis?.bind d.dates? = d'.dateAxis?.bind d'.dates?)

theorem SameFor.evaluate_eq {d d' : Dataset} {source : String}
    (hsame : ∀ p : Spelling, p.text = source.toList →
      d.SameFor d' p.expression) : d.evaluate source = d'.evaluate source := by
  have hcases := d.evaluate_cases source
  generalize d.evaluate source = result at hcases
  cases hcases with
  | malformed h => rw [d'.evaluate_of_no_spelling h]
  | notAllowed p hp h => rw [d'.evaluate_of_not_allowed hp h]
  | arity p f hp hf h => rw [d'.evaluate_of_arity hp hf h]
  | noColumn p f hp hf harity before after column hargs hbefore hcolumn =>
      have hcontains : ∀ a ∈ p.expression.args,
          d.contains a = d'.contains a :=
        fun a ha => ((hsame p hp).1 a ha).contains_eq
      rw [d'.evaluate_of_missing hp hf harity hargs]
      · intro a ha
        rw [← hcontains a (by simp [hargs, ha])]
        exact hbefore a ha
      · rw [← hcontains column (by simp [hargs])]
        exact hcolumn
  | value p f hp hf harity hcolumns x hx =>
      obtain ⟨hargs, haxis⟩ := hsame p hp
      obtain ⟨x', hx', hvalue'⟩ := d'.evaluate_of_contains hp hf harity
        fun a ha => (hargs a ha).contains_eq ▸ hcolumns a ha
      have hgrowth : f = .growth → d.dateAxis?.bind d.dates? =
          d'.dateAxis?.bind d'.dates? := by
        rintro rfl
        exact haxis hf.symm
      rw [f.value?_congr (numeric_filterMap_column? hargs) hgrowth, hvalue']
        at hx
      rw [hx', Option.some.inj hx]

/--
An expression has a value if and only if it is a spelled call of a function of
the table with as many arguments as that function takes, all of them columns.
The checks come in this order, and the first one that fails is the error.  A
dataset that agrees on the numbers of the named columns, and for the growth on
the dates of its axis, gives the same result.
-/
theorem evaluate_sandboxed (d : Dataset) (source : String) :
    ((∃ x, d.evaluate source = .ok x) ↔
        ∃ p : Spelling, p.text = source.toList ∧
          ∃ f : KpiFunction, f.name = p.expression.function ∧
            p.expression.args.length = f.arity ∧
            ∀ a ∈ p.expression.args, d.contains a = true) ∧
      ((∀ p : Spelling, p.text ≠ source.toList) →
        d.evaluate source = .error (.malformed source)) ∧
      (∀ p : Spelling, p.text = source.toList →
        ((∀ f : KpiFunction, f.name ≠ p.expression.function) →
          d.evaluate source =
            .error (.notAllowed p.expression.function source)) ∧
        ∀ f : KpiFunction, f.name = p.expression.function →
          (p.expression.args.length ≠ f.arity →
            d.evaluate source = .error (.arity p.expression.function f.arity
              p.expression.args.length source)) ∧
          ∀ before column after,
            p.expression.args.length = f.arity →
            p.expression.args = before ++ column :: after →
            (∀ a ∈ before, d.contains a = true) →
            d.contains column = false →
            d.evaluate source = .error (.noColumn column source)) ∧
      ∀ d' : Dataset,
        (∀ p : Spelling, p.text = source.toList →
          d.SameFor d' p.expression) →
        d.evaluate source = d'.evaluate source := by
  refine ⟨d.evaluate_isOk_iff source, d.evaluate_of_no_spelling,
    fun p hp => ⟨d.evaluate_of_not_allowed hp, fun f hf =>
      ⟨d.evaluate_of_arity hp hf, ?_⟩⟩, fun d' => SameFor.evaluate_eq⟩
  intro before column after harity hargs hbefore hcolumn
  exact d.evaluate_of_missing hp hf harity hargs hbefore hcolumn

theorem evaluate_sandboxed_growth :
    let dates : Values := .dates [some (.ofDate ⟨2024, 1, 5, by decide⟩), none]
    let numbers : Values := .numbers [some 1.5, none]
    let d : Dataset := ⟨[⟨"data", .date, dates⟩, ⟨"v", .currency, numbers⟩], 2⟩
    let d' : Dataset := ⟨[⟨"w", .string, .texts [.bool true]⟩,
      ⟨"v", .percent, numbers⟩, ⟨"dt", .date, dates⟩], 7⟩
    (∃ x, d.evaluate "Growth_MoM( v )" = .ok x) ∧
      d.evaluate "Growth_MoM( v )" = d'.evaluate "Growth_MoM( v )" ∧
      d.evaluate "attainment(v, data, x)" =
        .error (.arity "attainment" 2 3 "attainment(v, data, x)") := by
  intro dates numbers d d'
  have hone : Expression.ofChars? "Growth_MoM( v )".toList =
      some ⟨"growth_mom", ["v"]⟩ := rfl
  have hmany : Expression.ofChars? "attainment(v, data, x)".toList =
      some ⟨"attainment", ["v", "data", "x"]⟩ := rfl
  obtain ⟨p, hp, hcall⟩ := Expression.exists_spelling hone
  obtain ⟨q, hq, hthree⟩ := Expression.exists_spelling hmany
  obtain ⟨hvalue, -, -, hsame⟩ := d.evaluate_sandboxed "Growth_MoM( v )"
  obtain ⟨-, -, hrefused, -⟩ := d.evaluate_sandboxed "attainment(v, data, x)"
  refine ⟨hvalue.mpr ⟨p, hp, .growth, ?_, ?_, ?_⟩,
    hsame d' fun p' hp' => ?_, ?_⟩
  · rw [hcall]
    rfl
  · rw [hcall]
    rfl
  · rw [hcall]
    decide
  · have htext : p' = p :=
      Expression.Spelling.text_injective (hp'.trans hp.symm)
    rw [htext, hcall]
    refine ⟨fun a ha => ?_, fun _ => rfl⟩
    obtain rfl := List.mem_singleton.mp ha
    rfl
  · have harity := ((hrefused q hq).2 .attainment (by rw [hthree]; rfl)).1
    rw [hthree] at harity
    exact harity (by decide)

end Dataset

end Chartbook
