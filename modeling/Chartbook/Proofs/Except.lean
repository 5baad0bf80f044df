/-!
# Results that are handed on

A computation that goes on from another one, or changes its result, succeeds
only if that other one does.
-/

namespace Chartbook

variable {ε α β : Type}

theorem map_eq_ok {f : α → β} {r : Except ε α} {b : β} :
    r.map f = .ok b ↔ ∃ a, r = .ok a ∧ f a = b := by
  cases r with
  | error e => simp [Except.map]
  | ok a => simp [Except.map]

theorem bind_eq_ok {f : α → Except ε β} {r : Except ε α} {b : β} :
    r >>= f = .ok b ↔ ∃ a, r = .ok a ∧ f a = .ok b := by
  cases r with
  | error e => simp [bind, Except.bind]
  | ok a => simp [bind, Except.bind]

end Chartbook
