import Chartbook.Kpi.Expression

/-!
# Errors

The failures that leave the library, their wording and the status code that a
web front end should answer with.
-/

namespace Chartbook

inductive SettingsFault where
  | unreadable (path reason : String)
  | notJson (reason : String)
  | misfit (reason : String)
  | rule (text : String)
  deriving DecidableEq, Repr

def SettingsFault.message : SettingsFault → String
  | unreadable path reason => s!"cannot read '{path}': {reason}"
  | notJson reason => s!"settings file: {reason}"
  | misfit reason => reason
  | rule text => text

inductive Error where
  | settings (fault : SettingsFault)
  | csv (source : String)
  | io (source : String)
  | json (source : String)
  | table (reason : String)
  /-- A reply of the classifier cannot be used; `raw` is the reply. -/
  | reply (reason raw : String)
  | classification (reason : String)
  | kpi (name : String) (source : ExpressionError)
  | chart (title reason : String)
  | aggregation (reason : String)
  | notFound (what : String)
  | other (text : String)
  deriving DecidableEq, Repr

namespace Error

def message : Error → String
  | settings fault => s!"Configuration error: {fault.message}"
  | csv source => s!"CSV parsing system error: {source}"
  | io source => s!"I/O error: {source}"
  | json source => s!"JSON error: {source}"
  | table reason => s!"CSV data format error: {reason}"
  | reply reason _ => s!"Classifier returned an unusable reply ({reason})"
  | classification reason => s!"Invalid column classification: {reason}"
  | kpi name source => s!"Failed to compute KPI '{name}': {source.message}"
  | chart title reason => s!"Chart '{title}': {reason}"
  | aggregation reason => s!"Aggregation error: {reason}"
  | notFound what => s!"Not found: {what}"
  | other text => text

def status : Error → Nat
  | notFound _ => 404
  | reply .. => 502
  | csv _ | table _ | json _ | classification _ | kpi .. | chart .. => 400
  | settings _ | io _ | aggregation _ | other _ => 500

end Error

end Chartbook
