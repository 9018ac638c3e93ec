import ListingHub.Settings

/-!
# The time between two pings

Durations are compared, multiplied and divided as the numbers of nanoseconds that they last, and a
multiple is missing exactly when it is too long. So the time between two pings is nine tenths of the
wait for a pong, but no less than a millisecond, as long as nine waits are a duration; it is shorter
than any wait that is longer than a millisecond, and a longer wait never leads to a shorter time.
-/

namespace ListingHub

namespace Duration

/-- The shortest time that is no duration any more, in nanoseconds. -/
def beyond : Nat := UInt64.size * 1_000_000_000

/-- A multiple is missing exactly when it is too long. -/
theorem mul?_eq_none_iff {d : Duration} {factor : Nat} :
    d.mul? factor = none ↔ beyond ≤ d.toNanos * factor := by
  have hcarry := Nat.div_add_mod (d.nanos * factor) 1_000_000_000
  have hmod := Nat.mod_lt (d.nanos * factor) (y := 1_000_000_000) (by decide)
  have htotal : d.toNanos * factor =
      1_000_000_000 * (d.seconds * factor) + d.nanos * factor := by
    rw [toNanos, Nat.add_mul, Nat.mul_assoc]
  have hfits : d.mul? factor = none ↔
      UInt64.size ≤ d.seconds * factor + d.nanos * factor / 1_000_000_000 := by
    simp [mul?, make?, hmod, UInt64.size]
  rw [hfits, htotal, beyond]
  omega

theorem le_iff {a b : Duration} : a.le b = true ↔ a.toNanos ≤ b.toNanos := by
  have ha := a.nanos_lt
  have hb := b.nanos_lt
  simp only [le, toNanos, Bool.or_eq_true, Bool.and_eq_true, decide_eq_true_eq, beq_iff_eq]
  omega

/-- The longer of two lasts as long as the longer of two numbers says. -/
theorem toNanos_max (a b : Duration) : (a.max b).toNanos = Nat.max a.toNanos b.toNanos := by
  unfold max
  split
  · next hle => exact (Nat.max_eq_right (le_iff.mp hle)).symm
  · next hle => exact (Nat.max_eq_left (Nat.le_of_not_le fun h => hle (le_iff.mpr h))).symm

theorem toNanos_ofSeconds (seconds : UInt64) :
    (ofSeconds seconds).toNanos = seconds.toNat * 1_000_000_000 :=
  Nat.mul_comm _ _

/-- The length alone tells the whole seconds and the rest. -/
theorem seconds_eq (d : Duration) : d.seconds = d.toNanos / 1_000_000_000 := by
  have hnanos := d.nanos_lt
  rw [toNanos]
  omega

theorem nanos_eq (d : Duration) : d.nanos = d.toNanos % 1_000_000_000 := by
  have hnanos := d.nanos_lt
  rw [toNanos]
  omega

end Duration

namespace Settings

variable {settings : Settings} {interval : Duration}

/-- There is no time between pings exactly when nine waits are too long for a duration. -/
theorem pingInterval_eq_none_iff :
    settings.pingInterval = none ↔ Duration.beyond ≤ settings.pongWait.toNanos * 9 := by
  rw [pingInterval, Option.map_eq_none_iff, Duration.mul?_eq_none_iff]

/-- Nine tenths of the wait, rounded down to the nanosecond, or a millisecond. -/
theorem toNanos_pingInterval (h : settings.pingInterval = some interval) :
    interval.toNanos = Nat.max (settings.pongWait.toNanos * 9 / 10) 1_000_000 := by
  obtain ⟨nine, hnine, rfl⟩ := Option.map_eq_some_iff.mp h
  rw [Duration.toNanos_max, Duration.toNanos_div, Duration.toNanos_of_mul? hnine]
  rfl

theorem pingInterval_pos (h : settings.pingInterval = some interval) : 0 < interval.toNanos := by
  rw [toNanos_pingInterval h]
  exact Nat.lt_of_lt_of_le (by decide) (Nat.le_max_right _ _)

/-- A ping goes out before the wait for its pong is over. -/
theorem pingInterval_lt (h : settings.pingInterval = some interval)
    (hwait : 1_000_000 < settings.pongWait.toNanos) :
    interval.toNanos < settings.pongWait.toNanos := by
  rw [toNanos_pingInterval h]
  exact Nat.max_lt.mpr ⟨by omega, hwait⟩

/-- A longer wait has no shorter time between pings. -/
theorem pingInterval_mono {longer : Settings} {other : Duration}
    (h : settings.pingInterval = some interval) (hlonger : longer.pingInterval = some other)
    (hwait : settings.pongWait.toNanos ≤ longer.pongWait.toNanos) :
    interval.toNanos ≤ other.toNanos := by
  rw [toNanos_pingInterval h, toNanos_pingInterval hlonger]
  have htenths : settings.pongWait.toNanos * 9 / 10 ≤ longer.pongWait.toNanos * 9 / 10 :=
    Nat.div_le_div_right (Nat.mul_le_mul_right 9 hwait)
  exact Nat.max_le.mpr ⟨Nat.le_trans htenths (Nat.le_max_left _ _), Nat.le_max_right _ _⟩

/-- The time between two pings is missing exactly when the seconds of nine waits do not fit into 64
bits. Otherwise it is nine tenths of the wait, rounded down to the nanosecond once, or a millisecond
if that is longer, as whole seconds and the nanoseconds of less than a second. So it grows with the
wait, it is never below a millisecond, and it is shorter than a wait of more than a millisecond. -/
theorem pingInterval_rounds_once (settings : Settings) :
    let wait := settings.pongWait.toNanos
    (settings.pingInterval = none ↔ UInt64.size ≤ 9 * wait / 1_000_000_000) ∧
    (9 * wait / 1_000_000_000 < UInt64.size →
      ∃ interval, settings.pingInterval = some interval ∧
        interval.seconds = max (9 * wait / 10) 1_000_000 / 1_000_000_000 ∧
        interval.nanos = max (9 * wait / 10) 1_000_000 % 1_000_000_000 ∧
        interval.nanos < 1_000_000_000 ∧ 1_000_000 ≤ interval.toNanos ∧
        (1_000_000 < wait → interval.toNanos < wait)) ∧
    ∀ longer : Settings, wait ≤ longer.pongWait.toNanos →
      ∀ interval other, settings.pingInterval = some interval →
        longer.pingInterval = some other → interval.toNanos ≤ other.toNanos := by
  intro wait
  have hmissing : settings.pingInterval = none ↔ UInt64.size ≤ 9 * wait / 1_000_000_000 := by
    rw [pingInterval_eq_none_iff, Duration.beyond, Nat.mul_comm wait 9,
      Nat.le_div_iff_mul_le (by decide)]
  refine ⟨hmissing, fun hfits => ?_, fun longer hwait interval other h hlonger =>
    pingInterval_mono h hlonger hwait⟩
  obtain ⟨interval, hinterval⟩ : ∃ interval, settings.pingInterval = some interval :=
    Option.ne_none_iff_exists'.mp fun hnone => Nat.not_le_of_lt hfits (hmissing.mp hnone)
  have hlength : interval.toNanos = max (9 * wait / 10) 1_000_000 := by
    rw [toNanos_pingInterval hinterval, Nat.mul_comm]
  refine ⟨interval, hinterval, ?_, ?_, interval.nanos_lt, ?_, pingInterval_lt hinterval⟩
  · rw [interval.seconds_eq, hlength]
  · rw [interval.nanos_eq, hlength]
  · rw [hlength]
    exact Nat.le_max_right _ _

/-- The standard settings with another wait for a pong. -/
def waitingFor (pongWait : Duration) : Settings :=
  { standard with pongWait }

/-- The longest wait that leaves a time between pings; a nanosecond more leaves none. -/
theorem pingInterval_rounds_once_longest :
    let longest : Duration := ⟨2_049_638_230_412_172_401, 777_777_777, by decide, by decide⟩
    let beyond : Duration := ⟨2_049_638_230_412_172_401, 777_777_778, by decide, by decide⟩
    (∃ interval, (waitingFor longest).pingInterval = some interval ∧
      interval.seconds = 1_844_674_407_370_955_161 ∧ interval.nanos = 599_999_999 ∧
      interval.toNanos < longest.toNanos) ∧
    (waitingFor beyond).pingInterval = none := by
  intro longest beyond
  obtain ⟨-, hexact, -⟩ := pingInterval_rounds_once (waitingFor longest)
  obtain ⟨interval, hinterval, hseconds, hnanos, -, -, hshorter⟩ := hexact (by decide)
  refine ⟨⟨interval, hinterval, hseconds.trans ?_, hnanos.trans ?_, hshorter ?_⟩, ?_⟩
  · decide
  · decide
  · decide
  · exact (pingInterval_rounds_once (waitingFor beyond)).1.mpr (by decide)

end Settings

end ListingHub
