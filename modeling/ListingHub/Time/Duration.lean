import ListingHub.Text.Integer

/-!
# Durations

A span of time as whole seconds below `2 ^ 64` and nanoseconds below one second. Products and
quotients work on the two parts with a carry; `toNanos` is the length as one number.
-/

namespace ListingHub

/-- A span of time. -/
structure Duration where
  seconds : Nat
  nanos : Nat
  seconds_lt : seconds < 18_446_744_073_709_551_616
  nanos_lt : nanos < 1_000_000_000
  deriving DecidableEq

namespace Duration

/-- The length in nanoseconds. -/
def toNanos (d : Duration) : Nat :=
  1_000_000_000 * d.seconds + d.nanos

/-- Whole seconds and a fraction, if the seconds fit. -/
def make? (seconds nanos : Nat) : Option Duration :=
  if h : seconds < 18_446_744_073_709_551_616 ∧ nanos < 1_000_000_000 then
    some ⟨seconds, nanos, h.1, h.2⟩
  else none

/-- No nanoseconds are less than a second. -/
theorem zero_lt_second : 0 < 1_000_000_000 := by decide

/-- Whole seconds. -/
def ofSeconds (seconds : UInt64) : Duration :=
  ⟨seconds.toNat, 0, seconds.toNat_lt, zero_lt_second⟩

/-- Whole milliseconds. -/
def ofMillis (millis : UInt64) : Duration :=
  ⟨millis.toNat / 1000, millis.toNat % 1000 * 1_000_000,
    Nat.lt_of_le_of_lt (Nat.div_le_self _ _) millis.toNat_lt, by
      have := Nat.mod_lt millis.toNat (y := 1000) (by decide)
      omega⟩

/-- A multiple; `none` when its seconds do not fit. -/
def mul? (d : Duration) (factor : Nat) : Option Duration :=
  let total := d.nanos * factor
  make? (d.seconds * factor + total / 1_000_000_000) (total % 1_000_000_000)

/-- A multiple is exact. -/
theorem toNanos_of_mul? {d product : Duration} {factor : Nat} (h : d.mul? factor = some product) :
    product.toNanos = d.toNanos * factor := by
  simp only [mul?, make?] at h
  split at h
  · obtain rfl := Option.some.inj h
    have hcarry := Nat.div_add_mod (d.nanos * factor) 1_000_000_000
    simp only [toNanos]
    rw [Nat.mul_add, Nat.add_mul, Nat.mul_assoc, Nat.add_assoc, hcarry]
  · cases h

/-- The nanoseconds of an equal part: those of the nanoseconds and those of the seconds that do not
divide. -/
def partNanos (d : Duration) (parts : Nat) : Nat :=
  d.nanos / parts + (d.seconds % parts * 1_000_000_000 + d.nanos % parts) / parts

/-- The carried seconds are fewer than the parts, so that less than a second comes out. -/
theorem partNanos_lt (d : Duration) (parts : Nat) : d.partNanos parts < 1_000_000_000 := by
  rcases Nat.eq_zero_or_pos parts with rfl | h
  · simp [partNanos]
  · have hn := d.nanos_lt
    have hs : d.seconds % parts * 1_000_000_000 ≤ (parts - 1) * 1_000_000_000 :=
      Nat.mul_le_mul_right _ (Nat.le_sub_one_of_lt (Nat.mod_lt _ h))
    have hm := Nat.div_add_mod d.nanos parts
    have hp : (parts - 1) * 1_000_000_000 + 1_000_000_000 = 1_000_000_000 * parts := by
      rw [← Nat.succ_mul, Nat.succ_eq_add_one, Nat.sub_add_cancel h, Nat.mul_comm]
    rw [partNanos, ← Nat.mul_add_div h, Nat.div_lt_iff_lt_mul h]
    omega

/-- An equal part, rounded down to the nanosecond. -/
def div (d : Duration) (parts : Nat) : Duration :=
  ⟨d.seconds / parts, d.partNanos parts,
    Nat.lt_of_le_of_lt (Nat.div_le_self _ _) d.seconds_lt, d.partNanos_lt parts⟩

/-- Dividing whole units and a rest apart, with a carry, is dividing the sum. -/
theorem div_carry (whole rest unit parts : Nat) :
    whole / parts * unit + (rest / parts + (whole % parts * unit + rest % parts) / parts) =
      (whole * unit + rest) / parts := by
  rcases Nat.eq_zero_or_pos parts with rfl | h
  · simp
  · have hsplit : whole * unit + rest =
        parts * (whole / parts * unit + rest / parts) +
          (whole % parts * unit + rest % parts) := by
      have hwhole : whole * unit =
          parts * (whole / parts * unit) + whole % parts * unit := by
        rw [← Nat.mul_assoc, ← Nat.add_mul, Nat.div_add_mod]
      have hrest := Nat.div_add_mod rest parts
      rw [Nat.mul_add]
      omega
    rw [hsplit, Nat.mul_add_div h, Nat.add_assoc]

/-- An equal part is the quotient of the lengths, rounded down. -/
theorem toNanos_div (d : Duration) (parts : Nat) :
    (d.div parts).toNanos = d.toNanos / parts := by
  have hcarry := div_carry d.seconds d.nanos 1_000_000_000 parts
  rw [Nat.mul_comm _ 1_000_000_000, Nat.mul_comm d.seconds] at hcarry
  exact hcarry

/-- The order by seconds, then nanoseconds. -/
def le (a b : Duration) : Bool :=
  a.seconds < b.seconds || (a.seconds == b.seconds && a.nanos ≤ b.nanos)

/-- The longer of two. -/
def max (a b : Duration) : Duration :=
  if a.le b then b else a

/-- A number with a fraction of `width` digits, without the fraction's trailing zeros. -/
def decimal (whole fraction width : Nat) : String :=
  let digits := (Text.padded width fraction).toList.reverse.dropWhile (· == '0')
  if fraction = 0 then toString whole
  else toString whole ++ "." ++ String.ofList digits.reverse

/-- The text in the largest unit that leaves no leading zero. -/
def text (d : Duration) : String :=
  if 0 < d.seconds then decimal d.seconds d.nanos 9 ++ "s"
  else if 1_000_000 ≤ d.nanos then decimal (d.nanos / 1_000_000) (d.nanos % 1_000_000) 6 ++ "ms"
  else if 1000 ≤ d.nanos then decimal (d.nanos / 1000) (d.nanos % 1000) 3 ++ "µs"
  else toString d.nanos ++ "ns"

end Duration

end ListingHub
