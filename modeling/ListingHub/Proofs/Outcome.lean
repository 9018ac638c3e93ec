/-!
# Steps that succeed

A computation of steps that may fail succeeds with a result exactly when each step has an outcome
that the next one goes on with.
-/

namespace ListingHub

variable {ε α β : Type} {step : Except ε α} {b : β}

/-- What comes after a step that succeeds. -/
@[simp] theorem bind_ok (a : α) (next : α → Except ε β) : (Except.ok a >>= next) = next a := rfl

/-- A step succeeds with what comes after it. -/
theorem bind_eq_ok {next : α → Except ε β} :
    (step >>= next) = .ok b ↔ ∃ a, step = .ok a ∧ next a = .ok b := by
  cases step with
  | error => simp [bind, Except.bind]
  | ok a => simp

theorem map_eq_ok {f : α → β} : step.map f = .ok b ↔ ∃ a, step = .ok a ∧ f a = b := by
  cases step <;> simp [Except.map]

/-- The first of two parts of a result and the rest of it come out together. -/
theorem map_pair_eq_ok {first first' : β} {rest : α} :
    step.map (first, ·) = .ok (first', rest) ↔ first = first' ∧ step = .ok rest := by
  cases step <;> simp [Except.map]

theorem toOption_eq_some {a : α} : step.toOption = some a ↔ step = .ok a := by
  cases step <;> simp [Except.toOption]

end ListingHub
