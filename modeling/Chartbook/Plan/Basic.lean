/-!
# Plans

What a classifier proposes for a dashboard.  Nothing in a plan is trusted: names
may not exist, and expressions and chart types may be anything.
-/

namespace Chartbook

structure KpiPlan where
  name : String
  expression : String
  format : Option String := none
  explanation : Option String := none
  deriving DecidableEq, Repr

structure Series where
  key : String
  label : String
  dashed : Option Bool := none
  deriving DecidableEq, Repr

structure ChartPlan where
  kind : String
  title : String
  xKey : Option String := none
  yKey : Option String := none
  series : Option (List Series) := none
  categoryKey : Option String := none
  valueKey : Option String := none
  topN : Option Nat := none
  deriving DecidableEq, Repr

structure InsightPlan where
  kind : Option String := none
  title : Option String := none
  message : Option String := none
  deriving DecidableEq, Repr

structure Plan where
  kpis : List KpiPlan := []
  charts : List ChartPlan := []
  insights : List InsightPlan := []
  deriving DecidableEq, Repr

end Chartbook
