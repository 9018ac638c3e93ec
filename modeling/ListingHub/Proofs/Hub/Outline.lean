import ListingHub.Hub.Allowance
import ListingHub.Hub.Reading
import ListingHub.Hub.Writing
import ListingHub.Proofs.Broadcast
import ListingHub.Proofs.Rows

/-!
# The outline of a hub

What the tasks of a hub share and how far its pumps are, without sockets, clock and log. `Step`
lists all that can happen to it: the steps of the pumps, each with its effect on the switchboard and
the store, and what is done from outside. An invariant of the outline has one case for each of them.
-/

namespace ListingHub

theorem map_modify_of_eq {α β : Type} {f : α → α} {g : α → β} (hf : ∀ a, g (f a) = g a)
    (list : List α) (i : Nat) : (list.modify i f).map g = list.map g := by
  induction list generalizing i with
  | nil => simp
  | cons a list ih => cases i <;> simp [hf, ih]

theorem map_modify_eq_set {α β : Type} {f : α → α} {g : α → β} {b : β} (hf : ∀ a, g (f a) = b)
    (list : List α) (i : Nat) : (list.modify i f).map g = (list.map g).set i b := by
  induction list generalizing i with
  | nil => simp
  | cons a list ih => cases i <;> simp [hf, ih]

/-- What the tasks of a hub share, and how far its pumps are. -/
structure Outline where
  readers : List ReadPump
  writers : List WritePump
  board : Switchboard
  store : Store

/-- The outline of a hub. -/
def Hub.outline (hub : Hub) : Outline where
  readers := hub.peers.map Peer.reader
  writers := hub.peers.map Peer.writer
  board := hub.service.board
  store := hub.service.store

/-- A read pump that waits, or whose clock cannot tell until when. -/
inductive ReadPump.Awaits : ReadPump → Prop
  | waiting (deadline : Instant) : Awaits (.waiting deadline)
  | crashed : Awaits .crashed

theorem ReadPump.awaits_awaiting (settings : Settings) (now : Instant) :
    (awaiting settings now).Awaits := by
  unfold awaiting
  split
  · exact .waiting _
  · exact .crashed

theorem ReadPump.awaiting_eq_waiting {settings : Settings} {now : Instant}
    (hclock : now + settings.pongWait.toNanos < Instant.limit) :
    awaiting settings now = .waiting (now + settings.pongWait.toNanos) := by
  rw [awaiting, Instant.after?_eq_some_iff.mpr ⟨rfl, hclock⟩]

theorem ReadPump.awaiting_eq_crashed_iff {settings : Settings} {now : Instant} :
    awaiting settings now = .crashed ↔ Instant.limit ≤ now + settings.pongWait.toNanos := by
  rw [← Instant.after?_eq_none_iff, awaiting]
  cases now.after? settings.pongWait <;> simp

theorem ReadPump.awaiting_ne_handling (settings : Settings) (now deadline : Instant) (job : Job)
    (work : Handling) : awaiting settings now ≠ .handling deadline job work := by
  intro hhandling
  have hawaits := awaits_awaiting settings now
  rw [hhandling] at hawaits
  cases hawaits

theorem ReadPump.awaiting_ne_leaving (settings : Settings) (now : Instant) (exit : Exit) :
    awaiting settings now ≠ .leaving exit := by
  intro hleaving
  have hawaits := awaits_awaiting settings now
  rw [hleaving] at hawaits
  cases hawaits

/-- A move of a read pump that leaves the switchboard and the store alone. -/
inductive ReadPump.Turns : ReadPump → ReadPump → Prop
  | wait (deadline : Instant) {next : ReadPump} (hawaits : next.Awaits) :
      Turns (.waiting deadline) next
  | begin (deadline : Instant) (job : Job) :
      Turns (.waiting deadline) (.handling deadline job (.recording .lookingUp none))
  | stop (deadline : Instant) (exit : Exit) : Turns (.waiting deadline) (.leaving exit)
  | pause (deadline : Instant) (job : Job) (work : Recording) (wake : Instant) :
      Turns (.handling deadline job (.recording work none))
        (.handling deadline job (.recording work (some wake)))
  | expire (deadline : Instant) (job : Job) (work : Recording) (wake : Option Instant) :
      Turns (.handling deadline job (.recording work wake))
        (.handling deadline job (.finished (.error job.limit.failure)))
  | pushed (deadline : Instant) (job : Job) (recipients : List UserId) (delivered : Nat) :
      Turns (.handling deadline job (.fanningOut recipients (.finished delivered)))
        (.handling deadline job (.finished (.ok ())))
  | conclude (deadline : Instant) (job : Job) (outcome : Except Failure Unit) :
      Turns (.handling deadline job (.finished outcome)) (.waiting deadline)

namespace Outline

/-- What can happen to an outline. -/
inductive Step : Outline → Outline → Prop
  | rest (o : Outline) : Step o o
  /-- Something is done to the store, which loses nothing. -/
  | tend (o : Outline) {store : Store} (hgrows : o.store.Grows store) : Step o { o with store }
  | remove (o : Outline) (h : Handle) : Step o { o with board := (o.board.remove h).2 }
  | closeAll (o : Outline) : Step o { o with board := o.board.closeAll.2 }
  /-- A peer is let in. -/
  | enter (o : Outline) (identity : Identity) (capacity : Nat) :
      Step o { o with
        readers := o.readers ++ [.joining]
        writers := o.writers ++ [.starting]
        board := (o.board.connect identity capacity).2 }
  | join {o : Outline} {h : Handle} {next : ReadPump}
      (hreader : o.readers[h]? = some .joining) (hawaits : next.Awaits) :
      Step o { o with
        readers := o.readers.set h next
        board := (o.board.add h).2 }
  | turn {o : Outline} {h : Handle} {reader next : ReadPump}
      (hreader : o.readers[h]? = some reader) (hturns : reader.Turns next) :
      Step o { o with readers := o.readers.set h next }
  /-- The lookup or one row. -/
  | record {o : Outline} {h : Handle} {deadline : Instant} {job : Job} {work : Recording}
      {wake : Option Instant}
      (hreader : o.readers[h]? = some (.handling deadline job (.recording work wake)))
      (faults : Faults) (now : Timestamp) :
      Step o { o with
        readers := o.readers.set h (.handling deadline job
          (Job.afterRecording (work.step faults job.event now o.store).1))
        store := (work.step faults job.event now o.store).2 }
  /-- A step of a broadcast. -/
  | push {o : Outline} {h : Handle} {deadline : Instant} {job : Job} {recipients : List UserId}
      {broadcast : Broadcast}
      (hreader : o.readers[h]? = some (.handling deadline job (.fanningOut recipients broadcast))) :
      Step o { o with
        readers := o.readers.set h (.handling deadline job
          (.fanningOut recipients (broadcast.step (job.message recipients) o.board).1))
        board := (broadcast.step (job.message recipients) o.board).2.1 }
  /-- The teardown of a read pump. -/
  | leave {o : Outline} {h : Handle} {exit : Exit}
      (hreader : o.readers[h]? = some (.leaving exit)) :
      Step o { o with
        readers := o.readers.set h (.draining exit)
        board := (o.board.remove h).2.beginClose h }
  | finish {o : Outline} {h : Handle} {exit : Exit} {writer : WritePump}
      (hreader : o.readers[h]? = some (.draining exit)) (hwriter : o.writers[h]? = some writer)
      (hended : writer.ending?.isSome) :
      Step o { o with
        readers := o.readers.set h (.done exit)
        board := o.board.modify h Connection.markClosed }
  /-- A move of a write pump that leaves the switchboard alone. -/
  | write {o : Outline} {h : Handle} {writer next : WritePump}
      (hwriter : o.writers[h]? = some writer)
      (hready : writer = .starting → o.readers[h]? ≠ some .joining) (hnext : next ≠ .starting) :
      Step o { o with writers := o.writers.set h next }
  /-- A write pump uses the receiving half of its queue. -/
  | receive {o : Outline} {h : Handle} {writer next : WritePump} {change : Connection.Change}
      (hwriter : o.writers[h]? = some writer)
      (hready : writer = .starting → o.readers[h]? ≠ some .joining) (hnext : next ≠ .starting)
      (hchange : change = .receive ∨ change = .shutReceiver ∨ change = .dropReceiver) :
      Step o { o with
        writers := o.writers.set h next
        board := o.board.modify h change.apply }
  /-- The teardown of a write pump. -/
  | teardown {o : Outline} {h : Handle} {exit : Exit}
      (hwriter : o.writers[h]? = some (.leaving exit)) :
      Step o { o with
        writers := o.writers.set h (.done exit)
        board := ((o.board.remove h).2.beginClose h).modify h Connection.dropReceiver }

/-- All that a step does to the switchboard are acts. -/
theorem Step.acted {o next : Outline} (hstep : Step o next) : o.board.Acted next.board := by
  cases hstep with
  | rest | tend _ | turn _ _ | record _ _ _ | write _ _ _ => exact .refl
  | remove h => exact Switchboard.Acted.refl.act (.remove h)
  | closeAll => exact o.board.acted_closeAll
  | enter identity capacity => exact Switchboard.Acted.refl.act (.connect identity capacity)
  | @join h _ _ _ => exact Switchboard.Acted.refl.act (.add h)
  | push _ => exact o.board.acted_broadcast_step _ _
  | @leave h _ _ =>
      exact (Switchboard.Acted.refl.act (.remove h)).act (.change h .beginClose)
  | @finish h _ _ _ _ _ => exact Switchboard.Acted.refl.act (.change h .markClosed)
  | @receive h _ _ change _ _ _ _ => exact Switchboard.Acted.refl.act (.change h change)
  | @teardown h _ _ =>
      exact ((Switchboard.Acted.refl.act (.remove h)).act (.change h .beginClose)).act
        (.change h .dropReceiver)

/-- No step loses a row. -/
theorem Step.grows {o next : Outline} (hstep : Step o next) : o.store.Grows next.store := by
  cases hstep with
  | tend hgrows => exact hgrows
  | record _ faults now => exact Recording.grows_step faults _ now o.store _
  | rest | remove _ | closeAll | enter _ _ | join _ _ | turn _ _ | push _ | leave _
  | finish _ _ _ | write _ _ _ | receive _ _ _ _ | teardown _ => exact .refl o.store

end Outline

namespace Hub

variable {hub next : Hub} {h : Handle} {peer : Peer} {c : Connection} {deadline : Instant}

@[simp]
theorem outline_log (hub : Hub) (entries : List Entry) : (hub.log entries).outline = hub.outline :=
  rfl

@[simp]
theorem outline_mapBoard (hub : Hub) (f : Switchboard → Switchboard) :
    (hub.mapBoard f).outline = { hub.outline with board := f hub.outline.board } := rfl

/-- A change of a peer that moves no pump does not show. -/
theorem outline_modifyPeer {f : Peer → Peer} (hreader : ∀ peer, (f peer).reader = peer.reader)
    (hwriter : ∀ peer, (f peer).writer = peer.writer) (hub : Hub) (h : Handle) :
    (hub.modifyPeer h f).outline = hub.outline := by
  simp only [modifyPeer, outline]
  rw [map_modify_of_eq hreader, map_modify_of_eq hwriter]

@[simp]
theorem outline_setReader (hub : Hub) (h : Handle) (reader : ReadPump) :
    (hub.setReader h reader).outline =
      { hub.outline with readers := hub.outline.readers.set h reader } := by
  have hreaders : (hub.setReader h reader).peers.map Peer.reader =
      (hub.peers.map Peer.reader).set h reader := map_modify_eq_set (by simp) hub.peers h
  have hwriters : (hub.setReader h reader).peers.map Peer.writer = hub.peers.map Peer.writer :=
    map_modify_of_eq (by simp) hub.peers h
  rw [outline, hreaders, hwriters]
  rfl

@[simp]
theorem outline_setWriter (hub : Hub) (h : Handle) (writer : WritePump) :
    (hub.setWriter h writer).outline =
      { hub.outline with writers := hub.outline.writers.set h writer } := by
  have hreaders : (hub.setWriter h writer).peers.map Peer.reader = hub.peers.map Peer.reader :=
    map_modify_of_eq (by simp) hub.peers h
  have hwriters : (hub.setWriter h writer).peers.map Peer.writer =
      (hub.peers.map Peer.writer).set h writer := map_modify_eq_set (by simp) hub.peers h
  rw [outline, hreaders, hwriters]
  rfl

@[simp]
theorem outline_conclude (hub : Hub) (h : Handle) (user : UserId) (eventType : String)
    (outcome : Except Failure Unit) :
    (hub.conclude h user eventType outcome).outline = hub.outline := by
  cases outcome <;> rfl

/-- From one hub to the next a read pump that waited has moved, and nothing else. -/
def Turned (hub : Hub) (h : Handle) (deadline : Instant) (next : Hub) : Prop :=
  ∃ reader, (ReadPump.waiting deadline).Turns reader ∧
    next.outline = { hub.outline with readers := hub.outline.readers.set h reader }

theorem turned_route (hub : Hub) (h : Handle) (user : UserId) (deadline : Instant)
    (envelope : Envelope) : Turned hub h deadline (hub.route h user deadline envelope) := by
  unfold route
  split
  · exact ⟨_, .wait deadline (.waiting deadline), by simp [notProcessed]⟩
  · next tag fails _ =>
      refine ⟨_, .wait deadline (.waiting deadline), ?_⟩
      simp only [outline_conclude]
      exact outline_setReader hub h _
  · split
    · exact ⟨_, .wait deadline (.waiting deadline), by simp [notProcessed]⟩
    · next job _ => exact ⟨_, .begin deadline job, by simp⟩

theorem turned_takeData (hub : Hub) (h : Handle) (user : UserId) (deadline : Instant)
    (data : List UInt8) : Turned hub h deadline (hub.takeData h user deadline data) := by
  unfold takeData
  split
  · exact ⟨_, .stop deadline _, outline_setReader _ _ _⟩
  · split
    · exact ⟨_, .wait deadline (.waiting deadline), by simp⟩
    · exact turned_route hub h user deadline _

/-- Taking an arrival, the read pump of a peer goes on waiting, begins a job or stops. -/
theorem turned_take (hub : Hub) (h : Handle) (user : UserId) (deadline : Instant)
    (arrival : Arrival) : Turned hub h deadline (hub.take h user deadline arrival) := by
  cases arrival with
  | text data => exact turned_takeData hub h user deadline _
  | binary data => exact turned_takeData hub h user deadline data
  | pong size =>
      exact ⟨_, .wait deadline (ReadPump.awaits_awaiting _ _), outline_setReader _ _ _⟩
  | ping size => exact ⟨_, .wait deadline (.waiting deadline), outline_setReader _ _ _⟩
  | close | ended | failure reason => exact ⟨_, .stop deadline _, outline_setReader _ _ _⟩

theorem turned_takeNext {user : UserId} (htake : hub.takeNext h peer user deadline = some next) :
    Turned hub h deadline next := by
  unfold takeNext at htake
  split at htake
  · next arrival inbox _ =>
      obtain rfl := Option.some.inj htake
      obtain ⟨reader, hturns, houtline⟩ := turned_take
        (hub.modifyPeer h fun peer =>
          { peer.fetch inbox with sink := answer peer.transport arrival peer.sink })
        h user deadline arrival
      rw [outline_modifyPeer (by simp [Peer.fetch]) (by simp [Peer.fetch])] at houtline
      exact ⟨reader, hturns, houtline⟩
  · split at htake
    · obtain rfl := Option.some.inj htake
      exact ⟨_, .stop deadline _, outline_setReader _ _ _⟩
    · cases htake

end Hub

/-- What a step of a job does: it moves by itself, records or broadcasts. -/
theorem Job.step_cases {job : Job} {service after : Service} {now : Instant}
    {work next : Handling} {log : List Entry} (deadline : Instant)
    (hstep : job.step service now work = some (next, after, log)) :
    (ReadPump.Turns (.handling deadline job work) (.handling deadline job next) ∧
      after = service) ∨
    (∃ recording wake time, work = .recording recording wake ∧
      next = afterRecording (recording.step service.faults job.event time service.store).1 ∧
      after = { service with
        store := (recording.step service.faults job.event time service.store).2 }) ∨
    (∃ recipients broadcast, work = .fanningOut recipients broadcast ∧
      next = .fanningOut recipients
        (broadcast.step (job.message recipients) service.board).1 ∧
      after = { service with
        board := (broadcast.step (job.message recipients) service.board).2.1 }) := by
  unfold step at hstep
  split at hstep
  · next recording =>
      simp only at hstep
      split at hstep
      · obtain ⟨rfl, rfl, -⟩ := by simpa [record] using hstep
        exact .inr (.inl ⟨recording, _, _, rfl, rfl, rfl⟩)
      · obtain ⟨rfl, rfl, -⟩ := by simpa using hstep
        exact .inl ⟨.pause deadline job recording _, rfl⟩
  · next recording wake =>
      split at hstep
      · obtain ⟨rfl, rfl, -⟩ := by simpa [record] using hstep
        exact .inr (.inl ⟨recording, _, _, rfl, rfl, rfl⟩)
      · split at hstep
        · obtain ⟨rfl, rfl, -⟩ := by simpa using hstep
          exact .inl ⟨.expire deadline job recording _, rfl⟩
        · cases hstep
  · next recipients delivered =>
      obtain ⟨rfl, rfl, -⟩ := by simpa using hstep
      exact .inl ⟨.pushed deadline job recipients delivered, rfl⟩
  · next recipients broadcast _ =>
      obtain ⟨rfl, rfl, -⟩ := by simpa using hstep
      exact .inr (.inr ⟨recipients, broadcast, rfl, rfl, rfl⟩)
  · cases hstep

namespace Hub

open Outline (Step)

variable {hub next : Hub} {h : Handle} {peer : Peer} {c : Connection} {deadline : Instant}

theorem readers_of_peer (hpeer : hub.peers[h]? = some peer) :
    hub.outline.readers[h]? = some peer.reader := by
  simp [outline, hpeer]

theorem writers_of_peer (hpeer : hub.peers[h]? = some peer) :
    hub.outline.writers[h]? = some peer.writer := by
  simp [outline, hpeer]

theorem step_of_turned (hreader : hub.outline.readers[h]? = some (.waiting deadline))
    (hturned : Turned hub h deadline next) : Step hub.outline next.outline := by
  obtain ⟨reader, hturns, houtline⟩ := hturned
  rw [houtline]
  exact .turn hreader hturns

theorem step_handleNext {job : Job} {work : Handling}
    (hreader : hub.outline.readers[h]? = some (.handling deadline job work))
    (hnext : hub.handleNext h deadline job work = some next) :
    Step hub.outline next.outline := by
  unfold handleNext at hnext
  split at hnext
  · next outcome =>
      obtain rfl := Option.some.inj hnext
      rw [outline_conclude, outline_setReader]
      exact .turn hreader (.conclude deadline job outcome)
  · obtain ⟨⟨work', service, log⟩, hstep, rfl⟩ := Option.map_eq_some_iff.mp hnext
    rw [outline_setReader, outline_log]
    rcases job.step_cases deadline hstep with
      ⟨hturns, rfl⟩ | ⟨recording, wake, time, rfl, rfl, rfl⟩ |
      ⟨recipients, broadcast, rfl, rfl, rfl⟩
    · exact .turn hreader hturns
    · exact .record hreader hub.service.faults time
    · exact .push hreader

theorem outline_teardown (hub : Hub) (h : Handle) (exit : Exit) :
    (hub.teardown h exit).outline =
      { hub.outline with board := (hub.outline.board.remove h).2.beginClose h } := rfl

/-- A step of a read pump is a step of the outline. -/
theorem step_readStep {cancelFirst : Bool} (hstep : readStep cancelFirst h hub = some next) :
    Step hub.outline next.outline := by
  unfold readStep at hstep
  split at hstep
  · next peer c hpeer hget =>
      have hreader := readers_of_peer hpeer
      split at hstep
      · next hjoining =>
          rw [hjoining] at hreader
          obtain rfl := Option.some.inj hstep
          rw [join, outline_setReader]
          exact .join hreader (ReadPump.awaits_awaiting hub.settings hub.now)
      · next deadline hwaiting =>
          rw [hwaiting] at hreader
          simp only at hstep
          split at hstep
          · obtain rfl := Option.some.inj hstep
            rw [outline_setReader]
            exact .turn hreader (.stop deadline .cancelled)
          · exact step_of_turned hreader (turned_takeNext hstep)
      · next deadline job work hhandling =>
          rw [hhandling] at hreader
          exact step_handleNext hreader hstep
      · next exit hleaving =>
          rw [hleaving] at hreader
          obtain rfl := Option.some.inj hstep
          rw [outline_setReader, outline_teardown]
          exact .leave hreader
      · next exit hdraining =>
          rw [hdraining] at hreader
          obtain ⟨write, hended, rfl⟩ := Option.map_eq_some_iff.mp hstep
          rw [outline_setReader, outline_log, outline_mapBoard]
          exact .finish hreader (writers_of_peer hpeer) (by simp [hended])
      · cases hstep
      · cases hstep
  · cases hstep

theorem step_lapse (hstep : lapse h hub = some next) : Step hub.outline next.outline := by
  unfold lapse at hstep
  split at hstep
  · next deadline job work wake hreader =>
      split at hstep
      · obtain rfl := Option.some.inj hstep
        rw [outline_setReader]
        rw [← List.getElem?_map] at hreader
        exact .turn hreader (.expire deadline job work wake)
      · cases hstep
  · cases hstep

theorem outline_answerStep (hstep : answerStep h hub = some next) :
    next.outline = hub.outline := by
  unfold answerStep at hstep
  split at hstep
  · cases hstep
  · split at hstep
    · cases hstep
    · obtain rfl := Option.some.inj hstep
      exact outline_modifyPeer (by simp) (by simp) hub h

@[simp]
theorem outline_written (hub : Hub) (h : Handle) (sink : Sink) (frame : Frame) :
    (hub.written h sink frame).outline = hub.outline :=
  outline_modifyPeer (by simp) (by simp) hub h

@[simp]
theorem outline_stopWriter (hub : Hub) (h : Handle) (writer : WritePump) :
    (hub.stopWriter h writer).outline =
      { hub.outline with
        writers := hub.outline.writers.set h writer
        board := hub.outline.board.modify h Connection.shutReceiver } :=
  outline_setWriter _ h writer

theorem step_startWriter {writer : WritePump} (hwriter : hub.outline.writers[h]? = some writer)
    (hready : hub.outline.readers[h]? ≠ some .joining) :
    Step hub.outline (hub.startWriter h).outline := by
  unfold startWriter
  split
  · rw [outline_setWriter]
    exact .write hwriter (fun _ => hready) (by simp)
  · rw [outline_setWriter, outline_mapBoard]
    exact .receive hwriter (fun _ => hready) (by simp) (.inr (.inr rfl))

theorem step_idleStep {due : Instant} (hwriter : hub.outline.writers[h]? = some (.idle due))
    (hget : hub.connection? h = some c) (hstep : hub.idleStep h c due = some next) :
    Step hub.outline next.outline := by
  have hready : WritePump.idle due = .starting → hub.outline.readers[h]? ≠ some .joining := by
    simp
  unfold idleStep at hstep
  split at hstep
  · obtain rfl := Option.some.inj hstep
    rw [outline_stopWriter]
    exact .receive hwriter hready (by simp) (.inr (.inl rfl))
  · split at hstep
    · next envelope board hreceive =>
        obtain rfl := Option.some.inj hstep
        have hboard : board = hub.service.board.modify h fun c => c.receive.2 := by
          rw [connection?] at hget
          simp only [Switchboard.receive, hget, Prod.mk.injEq] at hreceive
          exact hreceive.2.symm
        rw [outline_setWriter, outline_mapBoard, hboard]
        exact .receive hwriter hready (by simp) (.inl rfl)
    · obtain rfl := Option.some.inj hstep
      rw [outline_stopWriter]
      exact .receive hwriter hready (by simp) (.inr (.inl rfl))
    · obtain rfl := Option.some.inj hstep
      rw [outline_stopWriter]
      exact .receive hwriter hready (by simp) (.inr (.inl rfl))
    · split at hstep
      · obtain rfl := Option.some.inj hstep
        rw [outline_setWriter]
        exact .write hwriter hready (by simp)
      · cases hstep

/-- A step of a write pump is a step of the outline. -/
theorem step_writeStep (hstep : writeStep h hub = some next) : Step hub.outline next.outline := by
  unfold writeStep at hstep
  split at hstep
  · next peer c hpeer hget =>
      have hreader := readers_of_peer hpeer
      have hwriter := writers_of_peer hpeer
      split at hstep
      · split at hstep
        · cases hstep
        · next hready =>
            obtain rfl := Option.some.inj hstep
            apply step_startWriter hwriter
            rw [hreader]
            intro hjoining
            exact hready (Option.some.inj hjoining)
      · next due hidle =>
          rw [hidle] at hwriter
          exact step_idleStep hwriter hget hstep
      · next frame due hsending =>
          rw [hsending] at hwriter
          obtain ⟨outcome, -, rfl⟩ := Option.map_eq_some_iff.mp hstep
          cases outcome with
          | ok sink =>
              rw [outline_setWriter, outline_written]
              exact .write hwriter (by simp) (by simp)
          | error reason =>
              rw [outline_stopWriter]
              exact .receive hwriter (by simp) (by simp) (.inr (.inl rfl))
      · next exit hclosing =>
          rw [hclosing] at hwriter
          obtain ⟨outcome, -, rfl⟩ := Option.map_eq_some_iff.mp hstep
          cases outcome with
          | ok sink =>
              rw [outline_setWriter, outline_written]
              exact .write hwriter (by simp) (by simp)
          | error reason =>
              rw [outline_setWriter]
              exact .write hwriter (by simp) (by simp)
      · next exit hleaving =>
          rw [hleaving] at hwriter
          obtain rfl := Option.some.inj hstep
          rw [outline_setWriter, outline_mapBoard, outline_teardown]
          exact .teardown hwriter
      · cases hstep
      · cases hstep
  · cases hstep

end Hub

end ListingHub
