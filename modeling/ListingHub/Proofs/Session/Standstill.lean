import ListingHub.Hub.Schedule
import ListingHub.Proofs.Session.Reception
import Mathlib.Algebra.GroupWithZero.Nat

/-!
# When a connection comes to rest

A pump that was told to leave sees it wherever it waits, with one exception: a write pump that waits
for its sink sees nothing else. So once a connection is off the registry its tasks come to rest in
three ways only. Either both pumps have left and the connection is closed; or the write pump waits
for a blocked sink, the read pump waits for the write pump, and the connection stays closing; or it
stays closing because its read pump has crashed and nobody waits for the write pump.
-/

namespace ListingHub

/-- A write waits exactly for a sink that is blocked and not broken. -/
theorem Sink.write?_eq_none_iff (sink : Sink) (frame : Frame) :
    sink.write? frame = none ↔ sink.blocked = true ∧ sink.broken = none := by
  unfold write?
  split
  · next hbroken => simp [hbroken]
  · next hbroken => simp [hbroken]

/-- The write pump waits for a sink that takes nothing. -/
def Peer.isStalled (peer : Peer) : Bool :=
  match peer.writer with
  | .sending .. | .closing _ => peer.sink.blocked && peer.sink.broken.isNone
  | .starting | .idle _ | .leaving _ | .done _ | .crashed => false

/-- A write pump that waits for its sink has not ended. -/
theorem Peer.ending?_of_isStalled {peer : Peer} (hstalled : peer.isStalled = true) :
    peer.writer.ending? = none := by
  unfold isStalled at hstalled
  cases hwriter : peer.writer with
  | sending frame due | closing exit => rfl
  | starting | idle due | leaving exit | done exit | crashed =>
      rw [hwriter] at hstalled
      cases hstalled

theorem Peer.draining_of_hasLeft {peer : Peer} (hleft : peer.hasLeft = true)
    (hserved : peer.isServed = false) : ∃ exit, peer.reader = .draining exit := by
  unfold hasLeft at hleft
  split at hleft
  · next exit hreader => exact ⟨exit, hreader⟩
  · next exit hreader =>
      rw [isServed, hreader] at hserved
      cases hserved
  · cases hleft

/-- Off the registry after it was registered, a connection is closing or closed. -/
theorem Peer.closing_or_closed {peer : Peer} {registered : Prop} {lifecycle : Lifecycle}
    (hagrees : peer.reader.Agrees registered lifecycle) (hjoined : peer.hasJoined = true)
    (hout : ¬registered) : lifecycle = .closing ∨ lifecycle = .closed := by
  cases hreader : peer.reader with
  | joining =>
      rw [hasJoined, hreader] at hjoined
      cases hjoined
  | waiting deadline | handling deadline job work | leaving exit | crashed =>
      rw [hreader] at hagrees
      rcases hagrees with ⟨hin, -⟩ | ⟨-, hclosing⟩
      · exact absurd hin hout
      · exact .inl hclosing
  | draining exit =>
      rw [hreader] at hagrees
      exact .inl hagrees.2
  | done exit =>
      rw [hreader] at hagrees
      exact .inr hagrees.2

namespace Hub

variable {hub : Hub} {h : Handle} {s : Session}

/-- The pumps of a connection take no step, however much time passes. -/
def Rests (hub : Hub) (h : Handle) : Prop :=
  ∀ nanos, (hub.after (.pass nanos)).step (.reading h) = none ∧
    (hub.after (.pass nanos)).step (.writing h) = none

/-- No task takes a step, however much time passes. -/
def AtRest (hub : Hub) : Prop :=
  ∀ nanos task, (hub.after (.pass nanos)).step task = none

/-- A job goes on, at the latest when its pause is over. -/
theorem exists_step_handleNext (hub : Hub) (h : Handle) (deadline : Instant) (job : Job)
    (work : Handling) :
    ∃ nanos, (hub.after (.pass nanos)).handleNext h deadline job work ≠ none := by
  cases work with
  | recording recording wake =>
      cases wake with
      | none =>
          refine ⟨0, ?_⟩
          simp only [handleNext, Job.step]
          split <;> simp
      | some wake =>
          refine ⟨wake, ?_⟩
          have hlate : wake ≤ (hub.after (.pass wake)).now := Nat.le_add_left wake hub.now
          simp [handleNext, Job.step, hlate]
  | fanningOut recipients broadcast =>
      refine ⟨0, ?_⟩
      cases broadcast <;> simp [handleNext, Job.step]
  | finished outcome => exact ⟨0, by simp [handleNext]⟩

/-- Nothing but the clock changes while time passes. -/
theorem session?_pass (hs : hub.session? h = some s) (nanos : Nat) :
    (hub.after (.pass nanos)).session? h = some s := hs

/-- A read pump that was told to leave goes on until it waits for its write pump, unless it has
crashed. -/
theorem left_or_crashed_of_rests (hs : hub.session? h = some s) (hrests : hub.Rests h)
    (hjoined : s.peer.hasJoined = true) (hcancelled : s.connection.cancelled = true) :
    s.peer.hasLeft = true ∨ s.peer.reader = .crashed := by
  obtain ⟨hpeer, hget, -⟩ := session?_eq_some_iff.mp hs
  have hread : ∀ nanos, readStep true h (hub.after (.pass nanos)) = none :=
    fun nanos => (hrests nanos).1
  have hpeers : ∀ nanos, (hub.after (.pass nanos)).peers[h]? = some s.peer := fun _ => hpeer
  have hgets : ∀ nanos, (hub.after (.pass nanos)).connection? h = some s.connection :=
    fun _ => hget
  simp only [readStep, hpeers, hgets] at hread
  cases hreader : s.peer.reader with
  | joining =>
      rw [Peer.hasJoined, hreader] at hjoined
      cases hjoined
  | waiting deadline =>
      have hnow := hread 0
      simp [hreader, hcancelled] at hnow
  | handling deadline job work =>
      obtain ⟨nanos, hgoes⟩ := hub.exists_step_handleNext h deadline job work
      have hlater := hread nanos
      rw [hreader] at hlater
      exact absurd hlater hgoes
  | leaving exit =>
      have hnow := hread 0
      simp [hreader] at hnow
  | draining exit | done exit => exact .inl (by rw [Peer.hasLeft, hreader])
  | crashed => exact .inr rfl

/-- A write pump that was told to leave goes on until it has ended, unless it waits for a sink that
takes nothing. -/
theorem ended_or_stalled_of_rests (hs : hub.session? h = some s) (hrests : hub.Rests h)
    (hjoined : s.peer.hasJoined = true) (hcancelled : s.connection.cancelled = true) :
    s.peer.writer.ending?.isSome = true ∨ s.peer.isStalled = true := by
  obtain ⟨hpeer, hget, -⟩ := session?_eq_some_iff.mp hs
  have hwrite : writeStep h hub = none := (hrests 0).2
  simp only [writeStep, hpeer, hget] at hwrite
  cases hwriter : s.peer.writer with
  | starting =>
      rw [hwriter] at hwrite
      rw [Peer.hasJoined] at hjoined
      split at hjoined
      · cases hjoined
      · simp at hwrite
  | idle due =>
      rw [hwriter] at hwrite
      simp [idleStep, hcancelled] at hwrite
  | sending frame due =>
      right
      rw [hwriter, Option.map_eq_none_iff, Sink.write?_eq_none_iff] at hwrite
      simp [Peer.isStalled, hwriter, hwrite.1, hwrite.2]
  | closing exit =>
      right
      rw [hwriter, Option.map_eq_none_iff, Sink.write?_eq_none_iff] at hwrite
      simp [Peer.isStalled, hwriter, hwrite.1, hwrite.2]
  | leaving exit =>
      rw [hwriter] at hwrite
      cases hwrite
  | done exit | crashed => exact .inl rfl

/-- A read pump that waits for its write pump rests only while that has not ended. -/
theorem ending?_of_rests (hs : hub.session? h = some s) (hrests : hub.Rests h) {exit : Exit}
    (hreader : s.peer.reader = .draining exit) : s.peer.writer.ending? = none := by
  obtain ⟨hpeer, hget, -⟩ := session?_eq_some_iff.mp hs
  have hread : readStep true h hub = none := (hrests 0).1
  simp only [readStep, hpeer, hget, hreader] at hread
  exact Option.map_eq_none_iff.mp hread

/-- A write pump that has ended takes no step. -/
theorem writeStep_of_ended (hs : hub.session? h = some s)
    (hended : s.peer.writer.ending?.isSome = true) : writeStep h hub = none := by
  obtain ⟨hpeer, hget, -⟩ := session?_eq_some_iff.mp hs
  simp only [writeStep, hpeer, hget]
  cases hwriter : s.peer.writer with
  | done exit | crashed => rfl
  | starting | idle due | sending frame due | closing exit | leaving exit =>
      rw [hwriter] at hended
      cases hended

/-- Nor does one that waits for a sink that takes nothing. -/
theorem writeStep_of_stalled (hs : hub.session? h = some s) (hstalled : s.peer.isStalled = true) :
    writeStep h hub = none := by
  obtain ⟨hpeer, hget, -⟩ := session?_eq_some_iff.mp hs
  simp only [writeStep, hpeer, hget]
  unfold Peer.isStalled at hstalled
  cases hwriter : s.peer.writer with
  | sending frame due | closing exit =>
      simp only [hwriter, Bool.and_eq_true, Option.isNone_iff_eq_none] at hstalled ⊢
      rw [Option.map_eq_none_iff, Sink.write?_eq_none_iff]
      exact hstalled
  | starting | idle due | leaving exit =>
      rw [hwriter] at hstalled
      cases hstalled
  | done exit | crashed => rfl

/-- A served peer whose write pump has ended rests. -/
theorem rests_of_served (hs : hub.session? h = some s) (hserved : s.peer.isServed = true)
    (hended : s.peer.writer.ending?.isSome = true) : hub.Rests h := by
  intro nanos
  have hlater := session?_pass hs nanos
  refine ⟨?_, writeStep_of_ended hlater hended⟩
  obtain ⟨hpeer, hget, -⟩ := session?_eq_some_iff.mp hlater
  rw [Peer.isServed] at hserved
  split at hserved
  · next exit hreader => simp only [step, readStep, hpeer, hget, hreader]
  · cases hserved

/-- So does a peer whose write pump waits for a sink that takes nothing while its read pump waits
for the write pump. -/
theorem rests_of_stalled (hs : hub.session? h = some s) {exit : Exit}
    (hreader : s.peer.reader = .draining exit) (hstalled : s.peer.isStalled = true) :
    hub.Rests h := by
  intro nanos
  have hlater := session?_pass hs nanos
  refine ⟨?_, writeStep_of_stalled hlater hstalled⟩
  obtain ⟨hpeer, hget, -⟩ := session?_eq_some_iff.mp hlater
  simp only [step, readStep, hpeer, hget, hreader, Peer.ending?_of_isStalled hstalled,
    Option.map_none]

/-- And a peer whose read pump has crashed, once its write pump has ended or waits for such a
sink. -/
theorem rests_of_crashed (hs : hub.session? h = some s) (hreader : s.peer.reader = .crashed)
    (hwriter : s.peer.writer.ending?.isSome = true ∨ s.peer.isStalled = true) : hub.Rests h := by
  intro nanos
  have hlater := session?_pass hs nanos
  refine ⟨?_, hwriter.elim (writeStep_of_ended hlater) (writeStep_of_stalled hlater)⟩
  obtain ⟨hpeer, hget, -⟩ := session?_eq_some_iff.mp hlater
  simp only [step, readStep, hpeer, hget, hreader]

/-- Where all connections rest and no pings are to be answered, nothing can go on. -/
theorem atRest_of_rests (hrests : ∀ h peer, hub.peers[h]? = some peer →
    hub.Rests h ∧ peer.unanswered = 0) : hub.AtRest := by
  intro nanos task
  have hpeers : (hub.after (.pass nanos)).peers = hub.peers := rfl
  cases task with
  | reading h =>
      cases hpeer : hub.peers[h]? with
      | none => simp only [step, readStep, hpeers, hpeer]
      | some peer => exact ((hrests h peer hpeer).1 nanos).1
  | writing h =>
      cases hpeer : hub.peers[h]? with
      | none => simp only [step, writeStep, hpeers, hpeer]
      | some peer => exact ((hrests h peer hpeer).1 nanos).2
  | answering h =>
      cases hpeer : hub.peers[h]? with
      | none => simp only [step, answerStep, hpeers, hpeer]
      | some peer => simp [step, answerStep, hpeers, hpeer, (hrests h peer hpeer).2]

/-- In every run a connection that is off the registry rests in three ways only. Either both pumps
have left, its peer is served and it is closed; or the write pump waits for a sink that takes
nothing, the read pump has left and waits for the write pump, and the connection stays closing; or
it stays closing because the clock could not tell until when to wait for a pong, at which the read
pump has crashed, whether the write pump has ended or waits for such a sink. -/
theorem rests_iff_closed_or_stalled_or_crashed (settings : Settings) (handlerTimeout : Duration)
    (store : Store) (faults : Faults) (start : Timestamp) (router : Router Handler)
    (happenings : List Happening) :
    let hub := ((Hub.new settings handlerTimeout store faults start).withRouter router).run
      happenings
    ∀ h peer c, hub.peers[h]? = some peer → hub.connection? h = some c →
      peer.hasJoined = true → h ∉ hub.service.board.members →
      (hub.Rests h ↔
        peer.isServed = true ∧ peer.writer.ending?.isSome = true ∧ c.lifecycle = .closed ∨
        peer.hasLeft = true ∧ peer.isStalled = true ∧ c.lifecycle = .closing ∨
        peer.reader = .crashed ∧ (peer.writer.ending?.isSome = true ∨ peer.isStalled = true) ∧
          c.lifecycle = .closing) ∧
      (peer.reader = .crashed → Instant.limit ≤ hub.now + settings.pongWait.toNanos) := by
  intro hub h peer c hpeer hget hjoined hout
  have hstart := lawful_new settings handlerTimeout store faults start router
  have hlawful : hub.outline.Lawful := lawful_run hstart happenings
  have hagrees := hlawful.agrees h peer.reader c (readers_of_peer hpeer) hget
  have hs : hub.session? h = some ⟨peer, c, hub.service.board.contains h⟩ :=
    session?_eq_some_iff.mpr ⟨hpeer, hget, rfl⟩
  have hreachable : hub.service.board.Reachable :=
    .acted (.empty settings.overflowPolicy)
      (acted_run ((Hub.new settings handlerTimeout store faults start).withRouter router)
        happenings)
  have hsound := hreachable.sound hget
  have hleaving := Peer.closing_or_closed hagrees hjoined hout
  have hcancelled := hsound.cancelled_iff.mpr hleaving
  have hclosed : c.lifecycle = .closed ↔ peer.isServed = true := hagrees.closed_iff
  have haccounts := accounts_run hstart
    (accounts_start settings handlerTimeout store faults start router h) happenings
  have hended : peer.isServed = true → peer.writer.ending?.isSome = true :=
    (haccounts.accounted hs).ended
  have hstays : peer.isServed = false → c.lifecycle = .closing := by
    intro hserved
    apply hleaving.resolve_right
    rw [hclosed, hserved]
    exact Bool.false_ne_true
  refine ⟨⟨?_, ?_⟩, limit_le_of_crashed_of_none hstart rfl happenings hs⟩
  · intro hrests
    have hwriter : peer.writer.ending?.isSome = true ∨ peer.isStalled = true :=
      ended_or_stalled_of_rests hs hrests hjoined hcancelled
    rcases left_or_crashed_of_rests hs hrests hjoined hcancelled with hleft | hcrashed
    · cases hserved : peer.isServed with
      | true => exact .inl ⟨rfl, hended hserved, hclosed.mpr hserved⟩
      | false =>
          obtain ⟨exit, hreader⟩ := Peer.draining_of_hasLeft hleft hserved
          have hwaits := ending?_of_rests hs hrests hreader
          refine .inr (.inl ⟨hleft, hwriter.resolve_left ?_, hstays hserved⟩)
          simp [hwaits]
    · have hserved : peer.isServed = false := by rw [Peer.isServed, hcrashed]
      exact .inr (.inr ⟨hcrashed, hwriter, hstays hserved⟩)
  · rintro (⟨hserved, hended, -⟩ | ⟨hleft, hstalled, hclosing⟩ | ⟨hcrashed, hwriter, -⟩)
    · exact rests_of_served hs hserved hended
    · have hserved : peer.isServed = false := by
        rw [Bool.eq_false_iff, Ne, ← hclosed, hclosing]
        simp
      obtain ⟨exit, hreader⟩ := Peer.draining_of_hasLeft hleft hserved
      exact rests_of_stalled hs hreader hstalled
    · exact rests_of_crashed hs hcrashed hwriter

/-- A peer falls silent while its sink takes nothing: the ping that is due after nine seconds waits
for the sink, and a second later no pong has come. -/
def silentRun : List Happening :=
  [.accept ⟨⟨1⟩, .user⟩ .direct, .read 0 true, .write 0, .block 0 true, .pass (9 * 10 ^ 9),
    .write 0, .pass (10 ^ 9), .read 0 true, .read 0 true]

theorem silent_peer_rests :
    let hub := ((Hub.new .standard ⟨10, 0, by decide, by decide⟩ .empty .none ⟨0, 0⟩).withRouter
      .empty).run silentRun
    0 ∉ hub.service.board.members ∧ hub.Rests 0 := by
  intro hub
  obtain ⟨peer, c, hpeer, hget, hjoined, hleft, hstalled, hclosing⟩ :
      ∃ peer c, hub.peers[0]? = some peer ∧ hub.connection? 0 = some c ∧
        peer.hasJoined = true ∧ peer.hasLeft = true ∧ peer.isStalled = true ∧
        c.lifecycle = .closing := ⟨_, _, rfl, rfl, rfl, rfl, rfl, rfl⟩
  have hout : 0 ∉ hub.service.board.members := by decide
  obtain ⟨hrests, -⟩ := rests_iff_closed_or_stalled_or_crashed .standard
    ⟨10, 0, by decide, by decide⟩ .empty .none ⟨0, 0⟩ .empty silentRun 0 peer c hpeer hget hjoined
    hout
  exact ⟨hout, hrests.mpr (.inr (.inl ⟨hleft, hstalled, hclosing⟩))⟩

/-- Nothing can go on after that, and the connection is off the registry, but it stays closing. -/
theorem silent_peer_stays_closing :
    let hub := ((Hub.new .standard ⟨10, 0, by decide, by decide⟩ .empty .none ⟨0, 0⟩).withRouter
      .empty).run silentRun
    hub.AtRest ∧ 0 ∉ hub.service.board.members ∧
    ∃ peer c, hub.peers[0]? = some peer ∧ hub.connection? 0 = some c ∧
      peer.reader = .draining .deadlineExceeded ∧ peer.isServed = false ∧
      c.lifecycle = .closing := by
  intro hub
  obtain ⟨peer, c, hpeer, hget, hreader, hstalled, hpings, hclosing⟩ :
      ∃ peer c, hub.peers[0]? = some peer ∧ hub.connection? 0 = some c ∧
        peer.reader = .draining .deadlineExceeded ∧ peer.isStalled = true ∧
        peer.unanswered = 0 ∧ c.lifecycle = .closing := ⟨_, _, rfl, rfl, rfl, rfl, rfl, rfl⟩
  have hs : hub.session? 0 = some ⟨peer, c, hub.service.board.contains 0⟩ :=
    session?_eq_some_iff.mpr ⟨hpeer, hget, rfl⟩
  refine ⟨?_, by decide, peer, c, hpeer, hget, hreader, ?_, hclosing⟩
  · apply atRest_of_rests
    intro h other hother
    have hlast : h = 0 := by
      have hlt := (List.getElem?_eq_some_iff.mp hother).1
      exact Nat.lt_one_iff.mp hlt
    subst hlast
    obtain rfl := Option.some.inj (hpeer.symm.trans hother)
    exact ⟨rests_of_stalled hs hreader hstalled, hpings⟩
  · rw [Peer.isServed, hreader]

end Hub

end ListingHub
