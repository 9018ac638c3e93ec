import ListingHub.Proofs.Calls
import ListingHub.Proofs.Session.Cause

/-!
# What a write pump writes

The frames that a write pump tries to write, next to the envelopes that the queue of its connection
accepts. While the pump runs, what it has tried, what it is writing and what waits are all that was
accepted, in order. It ends with one frame: the one whose write failed, or else a close.
-/

namespace ListingHub

/-- The text of a text frame. -/
def Frame.text? : Frame → Option String
  | text data => some data
  | ping | pong _ | close => none

/-- A frame that a write pump writes while it runs. -/
def Frame.isRoutine : Frame → Bool
  | text _ | ping => true
  | pong _ | close => false

def Frame.isPong : Frame → Bool
  | pong _ => true
  | text _ | ping | close => false

/-- What a write pump wrote to a sink, into which the transport puts its pongs. -/
def Sink.pumped (sink : Sink) : List Frame :=
  sink.sent.filter fun frame => !frame.isPong

/-- A write pump has tried to write a frame. -/
structure Attempt where
  frame : Frame
  /-- Why the write failed, if it did. -/
  failure : Option String
  deriving DecidableEq, Repr

/-- A write pump goes on after the attempt. -/
def Attempt.isRoutine (attempt : Attempt) : Bool :=
  attempt.failure.isNone && attempt.frame.isRoutine

/-- The last attempt of a write pump that ended so. -/
inductive Attempt.Ends : Attempt → Exit → Prop
  | failed {frame : Frame} (hframe : frame.isRoutine = true) (reason : String) :
      Ends ⟨frame, some reason⟩ (.transport reason)
  | closed {exit : Exit} (failure : Option String) (hexit : ∀ reason, exit ≠ .transport reason) :
      Ends ⟨.close, failure⟩ exit

/-- The frames that attempts wrote. -/
def writtenBy (attempts : List Attempt) : List Frame :=
  (attempts.filter fun attempt => attempt.failure.isNone).map Attempt.frame

/-- The texts that attempts wrote or failed to write. -/
def textsOf (attempts : List Attempt) : List String :=
  attempts.filterMap fun attempt => attempt.frame.text?

@[simp]
theorem writtenBy_append (attempts more : List Attempt) :
    writtenBy (attempts ++ more) = writtenBy attempts ++ writtenBy more := by
  simp [writtenBy]

@[simp]
theorem textsOf_append (attempts more : List Attempt) :
    textsOf (attempts ++ more) = textsOf attempts ++ textsOf more :=
  List.filterMap_append

namespace WritePump

/-- The frame that a write pump is writing. -/
def frame? : WritePump → Option Frame
  | sending frame _ => some frame
  | closing _ => some .close
  | starting | idle _ | leaving _ | done _ | crashed => none

/-- The text that a write pump is writing. -/
def inFlight (writer : WritePump) : List String :=
  (writer.frame?.bind Frame.text?).toList

/-- How many close frames a write pump has tried to write: one once it has stopped, unless a write
failed. -/
def farewells : WritePump → Nat
  | leaving (.transport _) | done (.transport _) => 0
  | leaving _ | done _ => 1
  | starting | idle _ | sending .. | closing _ | crashed => 0

/-- What a write pump has tried, by how far it is: routine writes that went well, and at its end one
attempt more. -/
def Tried (attempts : List Attempt) : WritePump → Prop
  | starting | idle _ | crashed => ∀ attempt ∈ attempts, attempt.isRoutine = true
  | sending frame _ =>
      frame.isRoutine = true ∧ ∀ attempt ∈ attempts, attempt.isRoutine = true
  | closing exit =>
      (∀ reason, exit ≠ .transport reason) ∧ ∀ attempt ∈ attempts, attempt.isRoutine = true
  | leaving exit | done exit =>
      ∃ before last, attempts = before ++ [last] ∧ last.Ends exit ∧
        ∀ attempt ∈ before, attempt.isRoutine = true

variable {attempts : List Attempt} {writer : WritePump}

theorem inFlight_of_stopped (hstopped : writer.isRunning = false) : writer.inFlight = [] := by
  cases writer with
  | starting | idle _ | sending _ _ => cases hstopped
  | closing _ | leaving _ | done _ | crashed => rfl

theorem countP_close_of_routine (hroutine : ∀ attempt ∈ attempts, attempt.isRoutine = true) :
    attempts.countP (fun attempt => attempt.frame == .close) = 0 := by
  rw [List.countP_eq_zero]
  intro attempt hin hclose
  have hframe : attempt.frame = .close := by simpa using hclose
  have := hroutine attempt hin
  simp [Attempt.isRoutine, hframe, Frame.isRoutine] at this

theorem Tried.countP_close (htried : writer.Tried attempts) :
    attempts.countP (fun attempt => attempt.frame == .close) = writer.farewells := by
  cases writer with
  | starting | idle _ | crashed => exact countP_close_of_routine htried
  | sending _ _ | closing _ => exact countP_close_of_routine htried.2
  | leaving exit | done exit =>
      obtain ⟨before, last, rfl, hends, hroutine⟩ := htried
      rw [List.countP_append, countP_close_of_routine hroutine, Nat.zero_add]
      cases hends with
      | @failed frame hframe reason => cases frame <;> first | rfl | cases hframe
      | closed failure hexit =>
          cases exit with
          | transport reason => exact absurd rfl (hexit reason)
          | cancelled | peerClosed | deadlineExceeded | frameTooLarge _ | queueClosed => rfl

/-- Nothing is tried after a close or a failure. -/
theorem Tried.last (htried : writer.Tried attempts) {before after : List Attempt}
    {attempt : Attempt} (hsplit : attempts = before ++ attempt :: after)
    (hends : attempt.isRoutine = false) : after = [] := by
  have hroutine : ∀ {earlier : List Attempt}, attempt ∈ earlier →
      ¬∀ attempt ∈ earlier, attempt.isRoutine = true := by
    intro earlier hin hall
    rw [hall attempt hin] at hends
    cases hends
  have hin : attempt ∈ attempts := by simp [hsplit]
  cases writer with
  | starting | idle _ | crashed => exact absurd htried (hroutine hin)
  | sending _ _ | closing _ => exact absurd htried.2 (hroutine hin)
  | leaving exit | done exit =>
      obtain ⟨earlier, last, hlast, -, hall⟩ := htried
      rcases List.eq_nil_or_concat after with hnone | ⟨more, final, hmore⟩
      · exact hnone
      · -- The attempt would be one of those before the last.
        have hsame : before ++ attempt :: more = earlier := by
          rw [hsplit, hmore, List.concat_eq_append, ← List.cons_append,
            ← List.append_assoc] at hlast
          exact (List.append_inj' hlast rfl).1
        exact absurd hall (hroutine (by simp [← hsame]))

theorem texts_of_routine (hroutine : ∀ attempt ∈ attempts, attempt.isRoutine = true) :
    (writtenBy attempts).filterMap Frame.text? = textsOf attempts := by
  have hwritten : attempts.filter (fun attempt => attempt.failure.isNone) = attempts := by
    rw [List.filter_eq_self]
    intro attempt hin
    exact (Bool.and_eq_true_iff.mp (hroutine attempt hin)).1
  rw [writtenBy, hwritten, List.filterMap_map]
  rfl

/-- Only the last text that was tried can be missing from what was written. -/
theorem Tried.texts_prefix (htried : writer.Tried attempts) :
    (writtenBy attempts).filterMap Frame.text? <+: textsOf attempts := by
  cases writer with
  | starting | idle _ | crashed => exact ⟨[], by rw [texts_of_routine htried, List.append_nil]⟩
  | sending _ _ | closing _ => exact ⟨[], by rw [texts_of_routine htried.2, List.append_nil]⟩
  | leaving exit | done exit =>
      obtain ⟨before, last, rfl, hends, hroutine⟩ := htried
      rw [writtenBy_append, List.filterMap_append, texts_of_routine hroutine, textsOf_append]
      have hlast : (writtenBy [last]).filterMap Frame.text? = [] := by
        cases hends with
        | failed _ _ => rfl
        | closed failure _ => cases failure <;> rfl
      rw [hlast, List.append_nil]
      exact List.prefix_append _ _

end WritePump

/-! ### Beside the pump -/

namespace Connection

/-- The call belongs to the receiving half of the queue. -/
def Change.isReceiver : Change → Bool
  | receive | shutReceiver | dropReceiver => true
  | markOpen | beginClose | markClosed | deliver _ => false

/-- Envelopes join the queue of a connection and the connection may be closed, but its receiving
half is left alone. -/
structure Joins (c d : Connection) (new : List Envelope) : Prop where
  receiver : d.receiver = c.receiver
  queue : d.queue = c.queue ++ new
  alive : new ≠ [] → c.receiver = .alive
  cancelled : c.cancelled = true → d.cancelled = true

theorem joins_refl (c : Connection) : c.Joins c [] :=
  ⟨rfl, (List.append_nil _).symm, fun hnew => absurd rfl hnew, id⟩

@[simp]
theorem receiver_markOpen (c : Connection) : c.markOpen.2.receiver = c.receiver := by
  unfold markOpen
  split <;> rfl

@[simp]
theorem receiver_beginClose (c : Connection) : c.beginClose.2.receiver = c.receiver := by
  unfold beginClose
  split <;> rfl

theorem joins_apply (c : Connection) (change : Change) (hside : change.isReceiver = false) :
    c.Joins (change.apply c) (change.accepted c) := by
  have hcancelled : c.cancelled = true → (change.apply c).cancelled = true :=
    cancelled_apply change
  cases change with
  | markOpen =>
      exact ⟨c.receiver_markOpen, by simp [Change.apply, Change.accepted],
        fun hnew => absurd rfl hnew, hcancelled⟩
  | beginClose =>
      exact ⟨c.receiver_beginClose, by simp [Change.apply, Change.accepted],
        fun hnew => absurd rfl hnew, hcancelled⟩
  | markClosed =>
      exact ⟨rfl, (List.append_nil _).symm, fun hnew => absurd rfl hnew, hcancelled⟩
  | deliver envelope =>
      refine ⟨?_, ?_, ?_, hcancelled⟩
      · simp only [Change.apply]
        rw [deliver_snd]
      · simp only [Change.apply, Change.accepted, deliver_fst]
        exact queue_deliver envelope c
      · intro hnew
        simp only [Change.accepted, deliver_fst] at hnew
        split at hnew
        · next hqueued => exact ((offer_eq_queued_iff c).mp hqueued).2.2.1
        · exact absurd rfl hnew
  | receive | shutReceiver | dropReceiver => cases hside

end Connection

namespace Session

variable {settings : Settings} {now : Instant} {s t u : Session} {new : List Envelope}

/-- What happens to a session elsewhere than in its write pump, as the pump sees it: envelopes join
the queue, and it may be told to leave. -/
structure Beside (s t : Session) (new : List Envelope) : Prop where
  writer : t.peer.writer = s.peer.writer
  pumped : t.peer.sink.pumped = s.peer.sink.pumped
  connection : s.connection.Joins t.connection new

theorem beside_refl (s : Session) : s.Beside s [] :=
  ⟨rfl, rfl, s.connection.joins_refl⟩

theorem beside_struck (s : Session) : s.Beside s.struck [] := by
  refine ⟨rfl, rfl, ?_⟩
  unfold struck
  split
  · exact s.connection.joins_apply .beginClose rfl
  · exact s.connection.joins_refl

theorem Pushed.beside {removal : Option Remover} (hpushed : s.Pushed removal t) :
    ∃ new, s.Beside t new := by
  cases hpushed with
  | spared => exact ⟨[], s.beside_refl⟩
  | offered envelope =>
      exact ⟨_, rfl, rfl, s.connection.joins_apply (.deliver envelope) rfl⟩
  | evicted => exact ⟨[], s.beside_struck⟩

/-- The transport puts nothing but pongs into a sink. -/
theorem pumped_answer (transport : Transport) (arrival : Arrival) (sink : Sink) :
    (Hub.answer transport arrival sink).pumped = sink.pumped := by
  unfold Hub.answer
  split
  · simp [Sink.pumped, Frame.isPong]
  · rfl
  · rfl

theorem Reads.beside {cancelFirst : Bool} {removal : Option Remover} {lines : List LogEvent}
    (hreads : s.Reads settings now cancelFirst removal lines t) : ∃ new, s.Beside t new := by
  cases hreads with
  | join _ =>
      refine ⟨[], rfl, rfl, ?_⟩
      simp only [joined, setReader]
      split
      · exact s.connection.joins_refl
      · exact s.connection.joins_apply .markOpen rfl
  | @take _ arrival inbox _ _ _ _ _ =>
      exact ⟨[], rfl, pumped_answer _ arrival _, s.connection.joins_refl⟩
  | expire _ _ _ _ | cancel _ _ | conclude _ => exact ⟨[], rfl, rfl, s.connection.joins_refl⟩
  | handle _ hpushed _ =>
      obtain ⟨new, hwriter, hpumped, hconnection⟩ := hpushed.beside
      exact ⟨new, hwriter, hpumped, hconnection⟩
  | leave _ => exact ⟨[], rfl, rfl, s.connection.joins_apply .beginClose rfl⟩
  | finish _ _ => exact ⟨[], rfl, rfl, s.connection.joins_apply .markClosed rfl⟩

theorem Touched.beside {removal : Option Remover} (htouched : s.Touched now removal t) :
    ∃ new, s.Beside t new := by
  cases htouched with
  | pushed hpushed => exact hpushed.beside
  | struck _ _ => exact ⟨[], s.beside_struck⟩
  | arrive _ _ _ | answer _ | lapse _ _ => exact ⟨[], rfl, rfl, s.connection.joins_refl⟩
  | resink hsent =>
      refine ⟨[], rfl, ?_, s.connection.joins_refl⟩
      simp [mapPeer, Sink.pumped, hsent]

/-- What happens to a session other than a step of its write pump. -/
theorem Step.beside {h : Handle} {happening : Happening} {removal : Option Remover}
    {lines : List LogEvent} (hstep : s.Step settings now h happening removal lines t)
    (hother : happening ≠ .write h) : ∃ new, s.Beside t new := by
  cases hstep with
  | rest _ => exact ⟨[], s.beside_refl⟩
  | read hreads => exact hreads.beside
  | write _ => exact absurd rfl hother
  | touch _ htouched => exact htouched.beside

/-! ### Steps of the pump -/

/-- What the next step of the write pump of a session tries to write. -/
def attempt? (s : Session) : Option Attempt :=
  s.peer.writer.frame?.bind fun frame => (s.peer.sink.write? frame).map fun
    | .ok _ => ⟨frame, none⟩
    | .error reason => ⟨frame, some reason⟩

theorem attempt?_of_none (hframe : s.peer.writer.frame? = none) : s.attempt? = none := by
  rw [attempt?, hframe]
  rfl

theorem attempt?_of_ok {frame : Frame} {sink : Sink} (hframe : s.peer.writer.frame? = some frame)
    (hwrite : s.peer.sink.write? frame = some (.ok sink)) : s.attempt? = some ⟨frame, none⟩ := by
  simp [attempt?, hframe, hwrite]

theorem attempt?_of_error {frame : Frame} {reason : String}
    (hframe : s.peer.writer.frame? = some frame)
    (hwrite : s.peer.sink.write? frame = some (.error reason)) :
    s.attempt? = some ⟨frame, some reason⟩ := by
  simp [attempt?, hframe, hwrite]

/-- What a step of the write pump of a session takes from the queue and what it leaves there. -/
structure Carries (s t : Session) (taken left : List Envelope) : Prop where
  texts : textsOf s.attempt?.toList ++ t.peer.writer.inFlight =
    s.peer.writer.inFlight ++ taken.map Envelope.encode
  queue : s.connection.queue = taken ++ left
  running : t.peer.writer.isRunning = true →
    s.peer.writer.isRunning = true ∧ t.connection.queue = left
  /-- A pump that was told to leave or has stopped takes nothing. -/
  closing : s.connection.cancelled = true ∨ s.peer.writer.isRunning = false → taken = []

/-- A pump that has stopped does not start again. -/
theorem Carries.stopped {taken left : List Envelope} (hcarries : s.Carries t taken left)
    (hstopped : s.peer.writer.isRunning = false) : t.peer.writer.isRunning = false := by
  rw [Bool.eq_false_iff] at hstopped ⊢
  exact fun hrunning => hstopped (hcarries.running hrunning).1

/-- A step that takes up nothing and after which nothing is being written. -/
theorem carries_nothing (htexts : textsOf s.attempt?.toList = s.peer.writer.inFlight)
    (hdone : t.peer.writer.inFlight = [])
    (hrunning : t.peer.writer.isRunning = true →
      s.peer.writer.isRunning = true ∧ t.connection.queue = s.connection.queue) :
    s.Carries t [] s.connection.queue where
  texts := by rw [htexts, hdone, List.map_nil]
  queue := rfl
  running := hrunning
  closing := fun _ => rfl

theorem textsOf_of_none (hframe : s.peer.writer.frame? = none) :
    textsOf s.attempt?.toList = s.peer.writer.inFlight := by
  rw [attempt?_of_none hframe, WritePump.inFlight, hframe]
  rfl

/-- A step that writes its frame tries its text, well or badly. -/
theorem textsOf_of_attempt {frame : Frame} {failure : Option String}
    (hframe : s.peer.writer.frame? = some frame) (hattempt : s.attempt? = some ⟨frame, failure⟩) :
    textsOf s.attempt?.toList = s.peer.writer.inFlight := by
  rw [hattempt, WritePump.inFlight, hframe]
  cases htext : frame.text? <;> simp [textsOf, htext]

theorem Writes.carries {removal : Option Remover} {lines : List LogEvent}
    (hwrites : s.Writes settings now removal lines t) :
    ∃ taken left, s.Carries t taken left := by
  cases hwrites with
  | start hwriter _ _ | ping hwriter _ _ _ =>
      exact ⟨_, _, carries_nothing (textsOf_of_none (congrArg WritePump.frame? hwriter)) rfl
        fun _ => ⟨congrArg WritePump.isRunning hwriter, rfl⟩⟩
  | crash hwriter _ _ | stop hwriter _ | disconnect hwriter _ _ | teardown hwriter =>
      exact ⟨_, _, carries_nothing (textsOf_of_none (congrArg WritePump.frame? hwriter)) rfl
        fun hrunning => absurd hrunning Bool.false_ne_true⟩
  | @fetch due envelope hwriter hfree hreceive =>
      have hqueue := s.connection.received_append_receive
      simp only [Connection.Change.received, hreceive] at hqueue
      refine ⟨[envelope], _, ?_, hqueue.symm,
        fun _ => ⟨congrArg WritePump.isRunning hwriter, rfl⟩, ?_⟩
      · rw [attempt?_of_none (congrArg WritePump.frame? hwriter), hwriter]
        rfl
      · -- The pump looks at the queue only while it runs and was not told to leave.
        rw [hfree, hwriter]
        rintro (hcancelled | hstopped)
        · cases hcancelled
        · cases hstopped
  | send hwriter hwrite =>
      have hframe := congrArg WritePump.frame? hwriter
      exact ⟨_, _, carries_nothing (textsOf_of_attempt hframe (attempt?_of_ok hframe hwrite)) rfl
        fun _ => ⟨congrArg WritePump.isRunning hwriter, rfl⟩⟩
  | farewell hwriter hwrite =>
      have hframe := congrArg WritePump.frame? hwriter
      exact ⟨_, _, carries_nothing (textsOf_of_attempt hframe (attempt?_of_ok hframe hwrite)) rfl
        fun hrunning => absurd hrunning Bool.false_ne_true⟩
  | fail hwriter hwrite | giveUp hwriter hwrite =>
      have hframe := congrArg WritePump.frame? hwriter
      exact ⟨_, _, carries_nothing (textsOf_of_attempt hframe (attempt?_of_error hframe hwrite)) rfl
        fun hrunning => absurd hrunning Bool.false_ne_true⟩

/-- The receiving half is shut when the pump stops. -/
theorem Writes.alive_iff {removal : Option Remover} {lines : List LogEvent}
    (hwrites : s.Writes settings now removal lines t)
    (halive : s.connection.receiver = .alive ↔ s.peer.writer.isRunning = true) :
    t.connection.receiver = .alive ↔ t.peer.writer.isRunning = true := by
  have hshut : s.connection.shutReceiver.receiver ≠ .alive := by
    simp only [Connection.shutReceiver]
    split <;> simp
  cases hwrites with
  | start hwriter _ _ | ping hwriter _ _ _ | send hwriter _ =>
      rw [hwriter] at halive
      exact halive
  | fetch hwriter _ _ =>
      rw [hwriter] at halive
      simp only [mapConnection, setWriter]
      rw [Connection.receive_snd]
      exact halive
  | stop _ _ | disconnect _ _ _ | fail _ _ => exact iff_of_false hshut Bool.false_ne_true
  | farewell hwriter _ | giveUp hwriter _ =>
      rw [hwriter] at halive
      exact halive
  | crash _ _ _ | teardown _ =>
      exact iff_of_false (show Receiver.dropped ≠ .alive by decide) Bool.false_ne_true

/-- A step of the pump adds its attempt to what was tried. -/
theorem Writes.tried {removal : Option Remover} {lines : List LogEvent} {attempts : List Attempt}
    (hwrites : s.Writes settings now removal lines t) (htried : s.peer.writer.Tried attempts) :
    t.peer.writer.Tried (attempts ++ s.attempt?.toList) := by
  have hnone (hframe : s.peer.writer.frame? = none) :
      attempts ++ s.attempt?.toList = attempts := by
    rw [attempt?_of_none hframe]
    exact List.append_nil _
  cases hwrites with
  | start hwriter _ _ | crash hwriter _ _ | teardown hwriter =>
      rw [hnone (congrArg WritePump.frame? hwriter)]
      rw [hwriter] at htried
      exact htried
  | stop hwriter _ | disconnect hwriter _ _ =>
      rw [hnone (congrArg WritePump.frame? hwriter)]
      rw [hwriter] at htried
      refine ⟨?_, htried⟩
      intro reason htransport
      cases htransport
  | fetch hwriter _ _ | ping hwriter _ _ _ =>
      rw [hnone (congrArg WritePump.frame? hwriter)]
      rw [hwriter] at htried
      exact ⟨rfl, htried⟩
  | @send frame _ _ hwriter hwrite =>
      rw [attempt?_of_ok (congrArg WritePump.frame? hwriter) hwrite]
      rw [hwriter] at htried
      obtain ⟨hframe, hroutine⟩ := htried
      intro attempt hin
      rcases List.mem_append.mp hin with hold | hnew
      · exact hroutine attempt hold
      · rw [List.mem_singleton.mp hnew]
        exact hframe
  | fail hwriter hwrite =>
      rw [attempt?_of_error (congrArg WritePump.frame? hwriter) hwrite]
      rw [hwriter] at htried
      exact ⟨attempts, _, rfl, .failed htried.1 _, htried.2⟩
  | farewell hwriter hwrite =>
      rw [attempt?_of_ok (congrArg WritePump.frame? hwriter) hwrite]
      rw [hwriter] at htried
      exact ⟨attempts, _, rfl, .closed none htried.1, htried.2⟩
  | giveUp hwriter hwrite =>
      rw [attempt?_of_error (congrArg WritePump.frame? hwriter) hwrite]
      rw [hwriter] at htried
      exact ⟨attempts, _, rfl, .closed _ htried.1, htried.2⟩

theorem pumped_of_write? {sink next : Sink} {frame : Frame}
    (hwrite : sink.write? frame = some (.ok next)) (hframe : frame.isPong = false) :
    next.pumped = sink.pumped ++ [frame] := by
  simp [Sink.pumped, Sink.sent_of_write? hwrite, hframe]

/-- The sink gets what is written. -/
theorem Writes.pumped {removal : Option Remover} {lines : List LogEvent} {attempts : List Attempt}
    (hwrites : s.Writes settings now removal lines t) (htried : s.peer.writer.Tried attempts) :
    t.peer.sink.pumped = s.peer.sink.pumped ++ writtenBy s.attempt?.toList := by
  have hnothing (hattempt : writtenBy s.attempt?.toList = []) :
      s.peer.sink.pumped = s.peer.sink.pumped ++ writtenBy s.attempt?.toList := by
    rw [hattempt, List.append_nil]
  cases hwrites with
  | start hwriter _ _ | crash hwriter _ _ | stop hwriter _ | fetch hwriter _ _
  | disconnect hwriter _ _ | ping hwriter _ _ _ | teardown hwriter =>
      apply hnothing
      rw [attempt?_of_none (congrArg WritePump.frame? hwriter)]
      rfl
  | fail hwriter hwrite | giveUp hwriter hwrite =>
      apply hnothing
      rw [attempt?_of_error (congrArg WritePump.frame? hwriter) hwrite]
      rfl
  | @send frame _ _ hwriter hwrite =>
      rw [attempt?_of_ok (congrArg WritePump.frame? hwriter) hwrite]
      rw [hwriter] at htried
      refine pumped_of_write? hwrite ?_
      cases frame with
      | pong _ => cases htried.1
      | text _ | ping | close => rfl
  | farewell hwriter hwrite =>
      rw [attempt?_of_ok (congrArg WritePump.frame? hwriter) hwrite]
      exact pumped_of_write? hwrite rfl

/-! ### The account -/

/-- What the write pump of a session has tried and written since its sink held the initial frames,
next to what its queue has accepted. -/
structure Outbox (initial : List Frame) (accepted : List Envelope) (attempts : List Attempt)
    (s : Session) : Prop where
  tried : s.peer.writer.Tried attempts
  pumped : s.peer.sink.pumped = initial ++ writtenBy attempts
  alive : s.connection.receiver = .alive ↔ s.peer.writer.isRunning = true
  texts : ∃ waiting : List Envelope,
    textsOf attempts ++ s.peer.writer.inFlight ++ waiting.map Envelope.encode =
      accepted.map Envelope.encode ∧
    (s.peer.writer.isRunning = true → waiting = s.connection.queue)

variable {initial : List Frame} {accepted : List Envelope} {attempts : List Attempt}

/-- A pump that has yet to start has tried nothing. -/
theorem outbox_of_starting (hwriter : s.peer.writer = .starting)
    (halive : s.connection.receiver = .alive) :
    s.Outbox s.peer.sink.pumped s.connection.queue [] where
  tried := by
    rw [hwriter]
    intro attempt hin
    cases hin
  pumped := (List.append_nil _).symm
  alive := by
    rw [hwriter, halive]
    exact iff_of_true rfl rfl
  texts := by
    refine ⟨_, ?_, fun _ => rfl⟩
    rw [hwriter]
    rfl

theorem Outbox.writes {removal : Option Remover} {lines : List LogEvent}
    (houtbox : s.Outbox initial accepted attempts)
    (hwrites : s.Writes settings now removal lines t) :
    t.Outbox initial accepted (attempts ++ s.attempt?.toList) where
  tried := hwrites.tried houtbox.tried
  pumped := by
    rw [hwrites.pumped houtbox.tried, houtbox.pumped, writtenBy_append, List.append_assoc]
  alive := hwrites.alive_iff houtbox.alive
  texts := by
    obtain ⟨taken, left, htexts, hqueue, hrunning, hclosing⟩ := hwrites.carries
    obtain ⟨waiting, haccepted, hwaiting⟩ := houtbox.texts
    -- What waits is what is taken and what is left; a pump that has stopped takes nothing.
    obtain ⟨rest, hrest, hleft⟩ : ∃ rest, waiting = taken ++ rest ∧
        (s.peer.writer.isRunning = true → rest = left) := by
      cases hrun : s.peer.writer.isRunning with
      | true => exact ⟨left, (hwaiting hrun).trans hqueue, fun _ => rfl⟩
      | false =>
          exact ⟨waiting, by rw [hclosing (.inr hrun)]; rfl,
            fun hrunning => absurd hrunning Bool.false_ne_true⟩
    refine ⟨rest, ?_, ?_⟩
    · calc textsOf (attempts ++ s.attempt?.toList) ++ t.peer.writer.inFlight ++
            rest.map Envelope.encode
        _ = textsOf attempts ++ (s.peer.writer.inFlight ++ taken.map Envelope.encode) ++
            rest.map Envelope.encode := by
          rw [textsOf_append, List.append_assoc (textsOf attempts), htexts]
        _ = textsOf attempts ++ s.peer.writer.inFlight ++ waiting.map Envelope.encode := by
          simp [hrest]
        _ = accepted.map Envelope.encode := haccepted
    · intro hstill
      obtain ⟨hrun, hnext⟩ := hrunning hstill
      rw [hleft hrun, hnext]

/-- What joins the queue is accepted, which it is only while the pump runs. -/
theorem Outbox.beside (houtbox : s.Outbox initial accepted attempts) (hbeside : s.Beside t new) :
    t.Outbox initial (accepted ++ new) attempts where
  tried := by
    rw [hbeside.writer]
    exact houtbox.tried
  pumped := hbeside.pumped.trans houtbox.pumped
  alive := by
    rw [hbeside.writer, hbeside.connection.receiver]
    exact houtbox.alive
  texts := by
    obtain ⟨waiting, haccepted, hwaiting⟩ := houtbox.texts
    refine ⟨waiting ++ new, ?_, ?_⟩
    · rw [hbeside.writer, List.map_append, ← List.append_assoc, haccepted, List.map_append]
    · rw [hbeside.writer, hbeside.connection.queue]
      intro hrunning
      rw [hwaiting hrunning]

/-- What was written are the first of the envelopes that were accepted. -/
theorem Outbox.written_prefix (houtbox : s.Outbox initial accepted attempts) :
    (writtenBy attempts).filterMap Frame.text? <+: accepted.map Envelope.encode := by
  obtain ⟨waiting, haccepted, -⟩ := houtbox.texts
  refine houtbox.tried.texts_prefix.trans ⟨s.peer.writer.inFlight ++
    waiting.map Envelope.encode, ?_⟩
  rw [← List.append_assoc, haccepted]

end Session

end ListingHub
