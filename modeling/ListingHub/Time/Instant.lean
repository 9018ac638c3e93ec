import ListingHub.Time.Duration

/-!
# Instants

The clock of the service counts nanoseconds from its origin and can tell whole seconds below
`2 ^ 63`. A duration of the service may be longer than that, so that there is not always an instant
which is that much later.
-/

namespace ListingHub

/-- Nanoseconds on the clock of the service. -/
abbrev Instant := Nat

namespace Instant

/-- The first instant that the clock cannot tell. -/
def limit : Instant := 9_223_372_036_854_775_808 * 1_000_000_000

/-- The instant a duration later, if the clock can tell it. -/
def after? (now : Instant) (d : Duration) : Option Instant :=
  if now + d.toNanos < limit then some (now + d.toNanos) else none

variable {now later : Instant} {d : Duration}

theorem after?_eq_some_iff :
    after? now d = some later ↔ later = now + d.toNanos ∧ now + d.toNanos < limit := by
  unfold after?
  split
  · next h => simp [h, eq_comm]
  · next h => simp [h]

theorem after?_eq_none_iff : after? now d = none ↔ limit ≤ now + d.toNanos := by
  unfold after?
  split
  · next h => simp [h]
  · next h => simp [Nat.le_of_not_lt h]

end Instant

end ListingHub
