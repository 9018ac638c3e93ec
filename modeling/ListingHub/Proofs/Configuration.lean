import ListingHub.Configuration
import ListingHub.Proofs.Outcome
import ListingHub.Proofs.Settings

/-!
# Configurations that were accepted

Whatever the environment holds, the connections of a configuration that was read may send a frame
of at least a byte and queue at least a message, and their pings go out before the wait for a pong
is over. Nothing bounds that wait from above: where nine waits are no duration any more, there is no
time between two pings.
-/

namespace ListingHub.Configuration

variable {env : Environment} {config checked : Configuration}

/-- What is checked passes as it is, and its limits are not zero. -/
theorem validate_eq_ok : config.validate = .ok checked ↔
    config = checked ∧ config.pongWaitSeconds ≠ 0 ∧ config.maxFrameBytes ≠ 0 := by
  unfold validate
  split
  · simp_all
  · split <;> simp_all

/-- A configuration that was read has passed its check. -/
theorem ne_zero_of_read (h : read env = .ok config) :
    config.pongWaitSeconds ≠ 0 ∧ config.maxFrameBytes ≠ 0 := by
  obtain ⟨address, -, h⟩ := bind_eq_ok.mp h
  obtain ⟨policy, -, h⟩ := bind_eq_ok.mp h
  obtain ⟨heq, hpos⟩ := validate_eq_ok.mp h
  rw [← heq]
  exact hpos

/-- A number other than zero is positive. -/
theorem toNat_pos {n : UInt64} (h : n ≠ 0) : 0 < n.toNat :=
  Nat.pos_of_ne_zero fun hzero => h (UInt64.toNat_inj.mp hzero)

theorem toNanos_pongWait (config : Configuration) :
    config.settings.pongWait.toNanos = config.pongWaitSeconds.toNat * 1_000_000_000 :=
  Duration.toNanos_ofSeconds config.pongWaitSeconds

/-- The settings of a configuration that was read let frames and messages through. If nine waits for
a pong are a duration, there is a time between two pings, and it is positive and shorter than the
wait; otherwise there is none. -/
theorem usable_of_read (h : read env = .ok config) :
    1 ≤ config.settings.maxFrameBytes ∧ 1 ≤ config.settings.outboundCapacity ∧
    (config.pongWaitSeconds.toNat * 9 < UInt64.size →
      ∃ interval, config.settings.pingInterval = some interval ∧
        0 < interval.toNanos ∧ interval.toNanos < config.settings.pongWait.toNanos) ∧
    (UInt64.size ≤ config.pongWaitSeconds.toNat * 9 → config.settings.pingInterval = none) := by
  obtain ⟨hwait, hbytes⟩ := ne_zero_of_read h
  have hmissing : config.settings.pingInterval = none ↔
      UInt64.size ≤ config.pongWaitSeconds.toNat * 9 := by
    rw [Settings.pingInterval_eq_none_iff, toNanos_pongWait, Duration.beyond,
      Nat.mul_right_comm]
    exact Nat.mul_le_mul_right_iff (by decide)
  refine ⟨toNat_pos hbytes, Nat.le_max_right _ _, fun hfits => ?_, hmissing.mpr⟩
  obtain ⟨interval, hinterval⟩ : ∃ interval, config.settings.pingInterval = some interval :=
    Option.ne_none_iff_exists'.mp fun hnone => Nat.not_le_of_lt hfits (hmissing.mp hnone)
  refine ⟨interval, hinterval, Settings.pingInterval_pos hinterval,
    Settings.pingInterval_lt hinterval ?_⟩
  have hsecond := toNat_pos hwait
  rw [toNanos_pongWait]
  omega

/-- An environment in which the wait for pongs alone is set. -/
def waiting (seconds : String) : Environment := fun name =>
  if name = "WS_PONG_WAIT_SECS" then some (Utf8.ofText seconds) else none

/-- What is computed from the configuration of an environment. -/
theorem exists_of_toOption {α : Type} {f : Configuration → α} {a : α}
    (h : (read env).toOption.map f = some a) : ∃ config, read env = .ok config ∧ f config = a := by
  simpa only [Option.map_eq_some_iff, toOption_eq_some] using h

theorem usable_of_read_second :
    ∃ config, read (waiting "1") = .ok config ∧
      1 ≤ config.settings.maxFrameBytes ∧ 1 ≤ config.settings.outboundCapacity ∧
      ∃ interval, config.settings.pingInterval = some interval ∧
        0 < interval.toNanos ∧ interval.toNanos < config.settings.pongWait.toNanos := by
  obtain ⟨config, hread, hwait⟩ := exists_of_toOption
    (show (read (waiting "1")).toOption.map (·.pongWaitSeconds) = some 1 by decide +kernel)
  obtain ⟨hbytes, hcapacity, husable, -⟩ := usable_of_read hread
  have hfits : config.pongWaitSeconds.toNat * 9 < UInt64.size := by
    rw [hwait]
    decide
  exact ⟨config, hread, hbytes, hcapacity, husable hfits⟩

/-- The longest wait that can be written passes the check and leaves no time between two pings. -/
theorem longest_wait_is_accepted :
    ∃ config, read (waiting "18446744073709551615") = .ok config ∧
      config.settings.pingInterval = none := by
  apply exists_of_toOption
  decide +kernel

end ListingHub.Configuration
