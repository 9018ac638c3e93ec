import ListingHub.Proofs.Session.Basic

/-!
# The pace of pings

When the write pump writes its next ping, and how long a pong may take. The deadline of the read
pump is compared with the oldest ping that no pong has followed, or else with the next ping: its
pong has to come in time. A step of the write pump keeps to that, or it stops while the deadline is
still to come.
-/

namespace ListingHub

def Arrival.isPong : Arrival → Bool
  | pong _ => true
  | text _ | binary _ | ping _ | close | failure _ | ended => false

/-- When a write pump writes its next ping unless something stops it. -/
def WritePump.nextPing? (every now : Nat) : WritePump → Option Nat
  | starting => some (now + every)
  | idle due => some due
  | sending .ping _ => some now
  | sending (.text _) due | sending (.pong _) due | sending .close due => some due
  | closing _ | leaving _ | done _ | crashed => none

/-- So much time may pass over a write pump that starts and stops at once, whose timer is on time
and whose writes take no time. -/
def WritePump.allows (now elapsed : Nat) : WritePump → Bool
  | idle due => now + elapsed ≤ due
  | starting | sending .. | closing _ | leaving _ => elapsed == 0
  | done _ | crashed => true

/-- Settings with less time between two pings than for a pong. -/
structure Pace (settings : Settings) where
  interval : Duration
  chosen : settings.pingInterval = some interval
  shorter : interval.toNanos < settings.pongWait.toNanos

namespace Pace

variable {settings : Settings} (pace : Pace settings)

/-- The time between two pings, in nanoseconds. -/
def every : Nat :=
  pace.interval.toNanos

/-- How long a connection may stay without a pong, in nanoseconds. -/
def wait (_ : Pace settings) : Nat :=
  settings.pongWait.toNanos

/-- How long a pong may take, in nanoseconds. -/
def spare : Nat :=
  pace.wait - pace.every

theorem every_lt_wait : pace.every < pace.wait :=
  pace.shorter

end Pace

/-- A write pump is in time with its pings, the oldest of which without a pong since was written at
`owed`. -/
structure WritePump.OnPace (every now : Nat) (owed : Option Nat)
    (writer : WritePump) : Prop where
  running : writer.ending? = none
  due : ∀ ping, writer.nextPing? every now = some ping → now ≤ ping ∧ ping ≤ now + every
  following : ∀ due : Nat, writer = .sending .ping due → due = now + every
  owed_le : ∀ since, owed = some since → since ≤ now

/-- The pong to the oldest ping without one, or else to the next ping, is in time for a deadline. -/
def WritePump.Meets {settings : Settings} (pace : Pace settings) (now : Nat)
    (owed : Option Nat) (deadline : Nat) (writer : WritePump) : Prop :=
  match writer.nextPing? pace.every now with
  | some ping => owed.getD ping + pace.wait ≤ deadline + pace.every
  | none => now < deadline

section Pace

variable {settings : Settings} {pace : Pace settings} {now deadline : Nat}
  {owed : Option Nat} {writer : WritePump}

theorem WritePump.onPace_starting (every now : Nat) : starting.OnPace every now none where
  running := rfl
  due := by
    intro ping hping
    obtain rfl := Option.some.inj hping
    exact ⟨Nat.le_add_right now every, Nat.le_refl _⟩
  following := by
    intro due hsending
    cases hsending
  owed_le := by
    intro since hsince
    cases hsince

/-- A deadline that is met is still to come. -/
theorem WritePump.Meets.lt_deadline (hmeets : writer.Meets pace now owed deadline)
    (hpace : writer.OnPace pace.every now owed)
    (htimely : ∀ since, owed = some since → now < since + pace.spare) : now < deadline := by
  have hshorter := pace.every_lt_wait
  have hspare : pace.spare = pace.wait - pace.every := rfl
  unfold Meets at hmeets
  cases hping : writer.nextPing? pace.every now with
  | none =>
      rw [hping] at hmeets
      exact hmeets
  | some ping =>
      obtain ⟨hcoming, -⟩ := hpace.due ping hping
      rw [hping] at hmeets
      cases owed with
      | none =>
          simp only [Option.getD_none] at hmeets
          omega
      | some since =>
          have hlate := htimely since rfl
          simp only [Option.getD_some] at hmeets
          omega

/-- A deadline that was set now is met. -/
theorem WritePump.OnPace.meets (hpace : writer.OnPace pace.every now owed) :
    writer.Meets pace now owed (now + pace.wait) := by
  have hshorter := pace.every_lt_wait
  unfold Meets
  cases hping : writer.nextPing? pace.every now with
  | none => exact Nat.lt_add_of_pos_right (Nat.zero_lt_of_lt hshorter)
  | some ping =>
      obtain ⟨-, hsoon⟩ := hpace.due ping hping
      cases owed with
      | none =>
          simp only [Option.getD_none]
          omega
      | some since =>
          have hsince := hpace.owed_le since rfl
          simp only [Option.getD_some]
          omega

/-- A pong that arrives is a ping less to wait for. -/
theorem WritePump.OnPace.ponged (hpace : writer.OnPace pace.every now owed) :
    writer.OnPace pace.every now none where
  running := hpace.running
  due := hpace.due
  following := hpace.following
  owed_le := by
    intro since hnone
    cases hnone

/-- A write pump that writes no more pings is on pace. -/
theorem WritePump.OnPace.stop (hpace : writer.OnPace pace.every now owed) {next : WritePump}
    (hrunning : next.ending? = none) (hlast : next.nextPing? pace.every now = none) :
    next.OnPace pace.every now owed where
  running := hrunning
  due := by
    intro ping hping
    rw [hlast] at hping
    cases hping
  following := by
    rintro due rfl
    cases hlast
  owed_le := hpace.owed_le

/-- A write pump that moves on without another ping or another wait for one stays on pace. -/
theorem WritePump.OnPace.move (hpace : writer.OnPace pace.every now owed) {next : WritePump}
    (hrunning : next.ending? = none)
    (hsame : next.nextPing? pace.every now = writer.nextPing? pace.every now)
    (hfollowing : ∀ due : Nat, next = .sending .ping due → due = now + pace.every) :
    next.OnPace pace.every now owed ∧
      ∀ deadline, writer.Meets pace now owed deadline → next.Meets pace now owed deadline := by
  refine ⟨⟨hrunning, ?_, hfollowing, hpace.owed_le⟩, ?_⟩
  · rw [hsame]
    exact hpace.due
  · intro deadline hmeets
    rw [Meets, hsame]
    exact hmeets

/-- A ping that is written may be the oldest without a pong. -/
theorem WritePump.OnPace.pinged {due : Nat}
    (hpace : (sending .ping due).OnPace pace.every now owed) :
    (idle due).OnPace pace.every now (some (owed.getD now)) ∧
      ∀ deadline, (sending .ping due).Meets pace now owed deadline →
        (idle due).Meets pace now (some (owed.getD now)) deadline := by
  have hdue := hpace.following due rfl
  refine ⟨⟨rfl, ?_, ?_, ?_⟩, fun _ => id⟩
  · intro ping hping
    obtain rfl := Option.some.inj hping
    omega
  · intro due' hsending
    cases hsending
  · intro since hsince
    obtain rfl := Option.some.inj hsince
    cases owed with
    | none => exact Nat.le_refl now
    | some since => exact hpace.owed_le since rfl

/-- Time that the pump allows passes, and it stays on pace. -/
theorem WritePump.OnPace.pass (hpace : writer.OnPace pace.every now owed) {elapsed : Nat}
    (hallows : writer.allows now elapsed = true) :
    writer.OnPace pace.every (now + elapsed) owed ∧
      ∀ deadline, writer.Meets pace now owed deadline →
        writer.Meets pace (now + elapsed) owed deadline := by
  have hrunning := hpace.running
  cases writer with
  | starting | sending frame due | closing exit | leaving exit =>
      obtain rfl : elapsed = 0 := by simpa [allows] using hallows
      exact ⟨hpace, fun _ => id⟩
  | idle due =>
      have hsoon : now + elapsed ≤ due := by simpa [allows] using hallows
      obtain ⟨-, hdue⟩ := hpace.due due rfl
      refine ⟨⟨rfl, ?_, ?_, ?_⟩, fun _ => id⟩
      · rintro ping hping
        obtain rfl := Option.some.inj hping
        omega
      · rintro due' hsending
        cases hsending
      · intro since hsince
        have := hpace.owed_le since hsince
        omega
  | done exit | crashed => cases hrunning

end Pace

/-- A write that succeeds adds its frame to what was sent. -/
theorem Sink.sent_of_write? {sink next : Sink} {frame : Frame}
    (hwrite : sink.write? frame = some (.ok next)) : next.sent = sink.sent ++ [frame] := by
  unfold write? at hwrite
  split at hwrite
  · cases hwrite
  · split at hwrite
    · cases hwrite
    · cases hwrite
      rfl

namespace Session

variable {settings : Settings} {pace : Pace settings} {now deadline : Nat} {owed : Option Nat}
  {s t : Session}

/-- A ping was written between two states of a session. -/
def pinged (s t : Session) : Bool :=
  (t.peer.sink.sent.drop s.peer.sink.sent.length).contains .ping

/-- A pong arrived between two states of a session. -/
def ponged (s t : Session) : Bool :=
  (t.peer.inbox.drop s.peer.inbox.length).any Arrival.isPong

/-- When the oldest ping was written that no pong has followed. -/
def owedAfter (s t : Session) (now : Nat) (owed : Option Nat) : Option Nat :=
  if s.ponged t then none else if s.pinged t then some (owed.getD now) else owed

theorem owedAfter_of_eq (hinbox : t.peer.inbox = s.peer.inbox)
    (hsent : t.peer.sink.sent = s.peer.sink.sent) : s.owedAfter t now owed = owed := by
  simp [owedAfter, ponged, pinged, hinbox, hsent]

theorem owedAfter_of_ping (hinbox : t.peer.inbox = s.peer.inbox)
    (hsent : t.peer.sink.sent = s.peer.sink.sent ++ [.ping]) :
    s.owedAfter t now owed = some (owed.getD now) := by
  simp [owedAfter, ponged, pinged, hinbox, hsent]

theorem owedAfter_of_frame (hinbox : t.peer.inbox = s.peer.inbox) {frame : Frame}
    (hframe : frame ≠ .ping) (hsent : t.peer.sink.sent = s.peer.sink.sent ++ [frame]) :
    s.owedAfter t now owed = owed := by
  simp [owedAfter, ponged, pinged, hinbox, hsent, Ne.symm hframe]

/-- From one state to the next the write pump stays on pace and goes on meeting the deadline that it
met, as long as no pong is late, or it tells the read pump to leave. -/
def KeepsPace (pace : Pace settings) (now : Nat) (owed : Option Nat) (s t : Session) : Prop :=
  t.connection.cancelled = true ∨
    t.peer.writer.OnPace pace.every now (s.owedAfter t now owed) ∧
      ∀ deadline, (∀ since, owed = some since → now < since + pace.spare) →
        s.peer.writer.Meets pace now owed deadline →
        t.peer.writer.Meets pace now (s.owedAfter t now owed) deadline

/-- A write pump goes on and writes its next ping when it would have done so anyway. -/
theorem keepsPace_of_move (hpace : s.peer.writer.OnPace pace.every now owed)
    (howed : s.owedAfter t now owed = owed) (hrunning : t.peer.writer.ending? = none)
    (hsame : t.peer.writer.nextPing? pace.every now = s.peer.writer.nextPing? pace.every now)
    (hfollowing : ∀ due : Nat, t.peer.writer = .sending .ping due → due = now + pace.every) :
    KeepsPace pace now owed s t := by
  obtain ⟨hnext, hmeets⟩ := hpace.move hrunning hsame hfollowing
  rw [KeepsPace, howed]
  exact .inr ⟨hnext, fun deadline _ => hmeets deadline⟩

/-- A write pump that stops leaves behind a deadline that is still to come. -/
theorem keepsPace_of_stop (hpace : s.peer.writer.OnPace pace.every now owed)
    (howed : s.owedAfter t now owed = owed) (hrunning : t.peer.writer.ending? = none)
    (hlast : t.peer.writer.nextPing? pace.every now = none) : KeepsPace pace now owed s t := by
  rw [KeepsPace, howed]
  refine .inr ⟨hpace.stop hrunning hlast, ?_⟩
  intro deadline htimely hmeets
  rw [WritePump.Meets, hlast]
  exact hmeets.lt_deadline hpace htimely

theorem keepsPace_of_send {frame : Frame} {due : Instant} {sink : Sink}
    (hpace : s.peer.writer.OnPace pace.every now owed)
    (hwriter : s.peer.writer = .sending frame due)
    (hsent : sink.sent = s.peer.sink.sent ++ [frame]) :
    KeepsPace pace now owed s ((s.written sink frame).setWriter (.idle due)) := by
  by_cases hframe : frame = .ping
  · subst hframe
    have howed : s.owedAfter ((s.written sink .ping).setWriter (.idle due)) now owed =
        some (owed.getD now) := owedAfter_of_ping rfl hsent
    rw [hwriter] at hpace
    obtain ⟨hnext, hmeets⟩ := hpace.pinged
    rw [KeepsPace, howed, hwriter]
    exact .inr ⟨hnext, fun deadline _ => hmeets deadline⟩
  · refine keepsPace_of_move hpace (owedAfter_of_frame rfl hframe hsent) rfl ?_ ?_
    · rw [hwriter]
      cases frame with
      | ping => exact absurd rfl hframe
      | text data | pong size | close => rfl
    · intro due' hsending
      cases hsending

theorem Writes.keepsPace {removal : Option Remover} {lines : List LogEvent}
    (hwrites : s.Writes settings now removal lines t)
    (hpace : s.peer.writer.OnPace pace.every now owed) : KeepsPace pace now owed s t := by
  cases hwrites with
  | @start interval hwriter hjoined hinterval =>
      obtain rfl := Option.some.inj (pace.chosen.symm.trans hinterval)
      refine keepsPace_of_move hpace (owedAfter_of_eq rfl rfl) rfl ?_ ?_
      · rw [hwriter]
        rfl
      · intro due hsending
        cases hsending
  | crash hwriter hjoined hinterval =>
      rw [pace.chosen] at hinterval
      cases hinterval
  | stop hwriter hcancelled => exact .inl hcancelled
  | fetch hwriter hfree hreceive =>
      refine keepsPace_of_move hpace (owedAfter_of_eq rfl rfl) rfl ?_ ?_
      · rw [hwriter]
        rfl
      · intro due hsending
        cases hsending
  | @ping due hwriter hfree hreceive hlate =>
      -- The timer is on time, so the following ping is an interval away.
      have hnow : due = now := by
        rw [hwriter] at hpace
        exact Nat.le_antisymm hlate (hpace.due due rfl).1
      subst hnow
      refine keepsPace_of_move hpace (owedAfter_of_eq rfl rfl) rfl ?_ ?_
      · rw [hwriter]
        rfl
      · intro next hsending
        cases hsending
        rw [pace.chosen]
        exact if_neg (Nat.not_lt.mpr (Nat.le_add_right due Hub.tolerance))
  | send hwriter hwrite => exact keepsPace_of_send hpace hwriter (Sink.sent_of_write? hwrite)
  | disconnect hwriter hfree hreceive =>
      exact keepsPace_of_stop hpace (owedAfter_of_eq rfl rfl) rfl rfl
  | fail hwriter hwrite => exact keepsPace_of_stop hpace (owedAfter_of_eq rfl rfl) rfl rfl
  | farewell hwriter hwrite =>
      have hframe : Frame.close ≠ .ping := by decide
      exact keepsPace_of_stop hpace
        (owedAfter_of_frame rfl hframe (Sink.sent_of_write? hwrite)) rfl rfl
  | giveUp hwriter hwrite => exact keepsPace_of_stop hpace (owedAfter_of_eq rfl rfl) rfl rfl
  | teardown hwriter => exact .inl (Connection.cancelled_beginClose _)

end Session

end ListingHub
