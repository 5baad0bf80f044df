import Chartbook.Kpi.Function
import Chartbook.Plan.Basic

/-!
# Evaluating KPIs

An expression is checked in a fixed order: its form, its function, the number of
its arguments, and its columns from left to right.
-/

namespace Chartbook

structure Kpi where
  name : String
  value : Float
  unit : Option String
  deriving DecidableEq

namespace Kpi

def toJson (k : Kpi) : Json := .object <|
  [("name", .text k.name), ("value", .real k.value)] ++
    k.unit.toList.map fun u => ("unit", .text u)

/--
The unit of a format, in lower case: an amount of money in the currency after
the colon or in the given one, a percentage, or none.
-/
def unitOf (format : Option String) (currency : String) : Option String := do
  let format := Text.lower (← format)
  if "currency".toList.isPrefixOf format.toList then
    let code := match format.toList.splitOn ':' with
      | _ :: code :: _ => String.ofList code
      | _ => currency
    some s!"currency:{code}"
  else if format = "percent" ∨ format = "%" then some "percent"
  else none

end Kpi

namespace Dataset

def argumentsOf (d : Dataset) (source : String) (names : List String) :
    Except ExpressionError (List Column) :=
  names.mapM fun name =>
    match d.column? name with
    | some c => .ok c
    | none => .error (.noColumn name source)

def evaluate (d : Dataset) (source : String) :
    Except ExpressionError Float := do
  let e ← Expression.parse source
  match KpiFunction.ofName? e.function with
  | none => throw (.notAllowed e.function source)
  | some f =>
      let arityError :=
        ExpressionError.arity e.function f.arity e.args.length source
      if e.args.length ≠ f.arity then throw arityError
      let args ← d.argumentsOf source e.args
      match f.value? d args with
      | some x => pure x
      | none => throw arityError

def kpi (d : Dataset) (currency : String) (plan : KpiPlan) : Except Error Kpi :=
  match d.evaluate plan.expression with
  | .ok x => .ok ⟨plan.name, x, Kpi.unitOf plan.format currency⟩
  | .error e => .error (.kpi plan.name e)

end Dataset

end Chartbook
