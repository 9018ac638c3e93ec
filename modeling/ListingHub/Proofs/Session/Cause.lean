import ListingHub.Proofs.Session.Keepalive

/-!
# Why a connection is taken off

Nobody takes a connection off without a cause, and the causes are few: its peer ended the stream or
failed it, sent a frame that is too large or no pong in time, its sink failed, all connections were
closed, or a broadcast that was meant for it found its queue full and the policy says to disconnect.
What the peers of other connections send, and what becomes of the events in it, is none.

A pump that is about to tear its connection down, and a broadcast that is about to remove one, carry
the cause with them: the invariants say that it has happened.
-/

namespace ListingHub

/-- The arrival ends its stream, by itself or because its frame is too large. -/
def Arrival.endsStream (maxFrameBytes : Nat) : Arrival → Bool
  | text data => maxFrameBytes < data.utf8ByteSize
  | binary data => maxFrameBytes < data.length
  | ping _ | pong _ => false
  | close | failure _ | ended => true

/-- A read pump stops only at an arrival that ends its stream. -/
theorem Arrival.Leads.endsStream {settings : Settings} {now deadline : Instant} {arrival : Arrival}
    {next : ReadPump} {exit : Exit} (hleads : arrival.Leads settings now deadline next)
    (hexit : next = .leaving exit) : arrival.endsStream settings.maxFrameBytes = true := by
  cases hleads with
  | close | ended | failure reason => rfl
  | pong _ => exact absurd hexit (ReadPump.awaiting_ne_leaving settings now exit)
  | ping _ | passed _ _ | begun _ _ _ => cases hexit
  | @tooLarge _ data hdata hlarge =>
      cases arrival with
      | text text =>
          obtain rfl := Option.some.inj hdata
          simpa [Arrival.endsStream, Utf8.ofText] using hlarge
      | binary bytes =>
          obtain rfl := Option.some.inj hdata
          simpa [Arrival.endsStream] using hlarge
      | ping _ | pong _ | close | failure _ | ended => cases hdata

/-- The write pump has not been stopped. -/
def WritePump.isRunning : WritePump → Bool
  | starting | idle _ | sending .. => true
  | closing _ | leaving _ | done _ | crashed => false

namespace Connection

/-- A queue that is in use is not found disconnected. -/
theorem receive_ne_disconnected {c : Connection} (hsound : c.Sound) (hfree : c.cancelled = false)
    (halive : c.receiver = .alive) :
    c.receive.1 ≠ .disconnected ∧ c.receive.1 ≠ .dropped := by
  have hheld : c.senderHeld = true := by
    have hcancelled := hsound.cancelled_iff
    have hreleased := hsound.released_iff
    rw [← hcancelled] at hreleased
    simpa [hfree] using hreleased
  unfold receive
  split
  · simp_all
  · simp
  · simp_all
  · simp [hheld]

end Connection

/-- Only a broadcast that is evicting removes anybody. -/
theorem fanningOut_of_evictee? {work : Handling} {h : Handle} (hevictee : work.evictee? = some h) :
    ∃ recipients todo delivered,
      work = .fanningOut recipients (.evicting (h :: todo) delivered) := by
  cases work with
  | recording _ _ | finished _ => cases hevictee
  | fanningOut recipients broadcast =>
      cases broadcast with
      | choosing | delivering _ _ | finished _ => cases hevictee
      | evicting todo delivered =>
          cases todo with
          | nil => cases hevictee
          | cons g todo =>
              obtain rfl := Option.some.inj hevictee
              exact ⟨recipients, todo, delivered, rfl⟩

namespace Switchboard

/-- No act changes the policy. -/
theorem Acted.policy_eq {start board : Switchboard} (h : start.Acted board) :
    board.policy = start.policy := by
  induction h with
  | refl => rfl
  | act next _ ih =>
      rw [← ih]
      cases next with
      | add h => exact policy_add _ h
      | remove h => exact policy_remove _ h
      | connect identity capacity => rfl
      | drain => rfl
      | change h change => rfl

end Switchboard

/-- A broadcast is to remove only connections that are suspected, and offers its envelope only to
those of users that are wanted. -/
def Broadcast.Suspects (board : Switchboard) (wanted : UserId → Bool) (suspect : Handle → Prop) :
    Broadcast → Prop
  | choosing | finished _ => True
  | delivering todo tally =>
      (∀ h ∈ todo, ∃ c, board.get? h = some c ∧ wanted c.user = true) ∧
        ∀ h ∈ tally.overflowed, suspect h
  | evicting todo _ => ∀ h ∈ todo, suspect h

namespace Broadcast

variable {board after : Switchboard} {wanted : UserId → Bool} {suspect later : Handle → Prop}
  {broadcast : Broadcast}

/-- Connections stay with their users, and suspicion stays. -/
theorem Suspects.mono (h : broadcast.Suspects board wanted suspect) (hacted : board.Acted after)
    (hlater : ∀ g, suspect g → later g) : broadcast.Suspects after wanted later := by
  cases broadcast with
  | choosing | finished delivered => trivial
  | delivering todo tally =>
      refine ⟨?_, fun g hg => hlater g (h.2 g hg)⟩
      intro g hg
      obtain ⟨c, hget, hwanted⟩ := h.1 g hg
      obtain ⟨d, hd, hidentity⟩ := hacted.exists_get? hget
      refine ⟨d, hd, ?_⟩
      rwa [Connection.user, hidentity]
  | evicting todo delivered => exact fun g hg => hlater g (h g hg)

/-- A step of a broadcast suspects one connection more if it finds its queue full and the policy
says to disconnect. -/
theorem Suspects.step {message : Message} (h : broadcast.Suspects board message.wanted suspect)
    (hacted : board.Acted after) (hlater : ∀ g, suspect g → later g)
    (hfull : ∀ g todo tally c, broadcast = delivering (g :: todo) tally → board.get? g = some c →
      message.wanted c.user = true → c.offer = .full → board.policy = .disconnect → later g) :
    (broadcast.step message board).1.Suspects after message.wanted later := by
  cases broadcast with
  | choosing =>
      have hnew : (delivering (board.snapshot message.wanted) .zero).Suspects board
          message.wanted suspect := by
        refine ⟨?_, by simp [Tally.zero]⟩
        intro g hg
        exact ((board.mem_snapshot message.wanted g).mp hg).2
      exact hnew.mono hacted hlater
  | delivering todo tally =>
      cases todo with
      | nil => exact fun g hg => hlater g (h.2 g hg)
      | cons g todo =>
          have hrest : (delivering todo tally).Suspects board message.wanted suspect :=
            ⟨fun other hin => h.1 other (List.mem_cons_of_mem g hin), h.2⟩
          obtain ⟨htargets, hold⟩ := hrest.mono hacted hlater
          refine ⟨htargets, ?_⟩
          intro other hin
          replace hin : other ∈ (board.offer message.envelope tally g).1.overflowed := hin
          rw [Switchboard.offer_overflowed, List.mem_append] at hin
          rcases hin with hin | hin
          · exact hold other hin
          · split at hin
            · next hevicts =>
                obtain rfl := List.mem_singleton.mp hin
                obtain ⟨c, hget, hwanted⟩ := h.1 other List.mem_cons_self
                obtain ⟨hoffer, hpolicy⟩ : c.offer = .full ∧ board.policy = .disconnect := by
                  simpa [Switchboard.evicts, Switchboard.outcome, hget] using hevicts
                exact hfull other todo tally c rfl hget hwanted hoffer hpolicy
            · cases hin
  | evicting todo delivered =>
      cases todo with
      | nil => trivial
      | cons g todo => exact fun other hin => hlater other (h other (List.mem_cons_of_mem g hin))
  | finished delivered => trivial

end Broadcast

namespace Hub

/-- What happens to a hub is a cause to take a connection off, and whose. -/
inductive Condemns (hub : Hub) (h : Handle) : Remover → Happening → Prop
  /-- The stream of its own peer ends or carries a frame that is too large. -/
  | stream {peer : Peer} {deadline : Instant} {arrival : Arrival} {inbox : List Arrival}
      (cancelFirst : Bool) (hpeer : hub.peers[h]? = some peer)
      (hreader : peer.reader = .waiting deadline) (hinbox : peer.inbox = arrival :: inbox)
      (hends : arrival.endsStream hub.settings.maxFrameBytes = true) :
      Condemns hub h .readPump (.read h cancelFirst)
  /-- No pong of its own peer came in time. -/
  | deadline {peer : Peer} {deadline : Instant} (cancelFirst : Bool)
      (hpeer : hub.peers[h]? = some peer) (hreader : peer.reader = .waiting deadline)
      (hinbox : peer.inbox = []) (hlate : deadline ≤ hub.now) :
      Condemns hub h .readPump (.read h cancelFirst)
  /-- Nothing can be written to its own peer. -/
  | sink {peer : Peer} {frame : Frame} {due : Instant} {reason : String}
      (hpeer : hub.peers[h]? = some peer) (hwriter : peer.writer = .sending frame due)
      (hwrite : peer.sink.write? frame = some (.error reason)) :
      Condemns hub h .writePump (.write h)
  | closeAll : Condemns hub h .closeAll .closeAll
  /-- A push to its user finds its queue full. -/
  | overflow {g : Handle} {peer : Peer} {c : Connection} {deadline : Instant} {job : Job}
      {recipients : List UserId} {todo : List Handle} {tally : Tally} (cancelFirst : Bool)
      (hpolicy : hub.service.board.policy = .disconnect) (hpeer : hub.peers[g]? = some peer)
      (hreader : peer.reader =
        .handling deadline job (.fanningOut recipients (.delivering (h :: todo) tally)))
      (hget : hub.connection? h = some c) (hwanted : c.user ∈ recipients)
      (hfull : c.offer = .full) :
      Condemns hub h .overflow (.read g cancelFirst)

/-- A cause to take a connection off was given in a run. -/
def Condemned (first : Hub) (past : List Happening) (h : Handle) (remover : Remover) : Prop :=
  ∃ before happening after, past = before ++ happening :: after ∧
    (first.run before).Condemns h remover happening

/-- Every broadcast of a hub is to remove only connections that are suspected. -/
def Suspecting (hub : Hub) (suspect : Handle → Prop) : Prop :=
  ∀ g s deadline job recipients broadcast, hub.session? g = some s →
    s.peer.reader = .handling deadline job (.fanningOut recipients broadcast) →
    broadcast.Suspects hub.service.board (job.message recipients).wanted suspect

variable {first hub next : Hub} {past : List Happening} {happening : Happening} {h g : Handle}
  {remover : Remover} {s t : Session}

theorem Condemns.condemned (hcondemns : (first.run past).Condemns h remover happening) :
    first.Condemned (past ++ [happening]) h remover :=
  ⟨past, happening, [], rfl, hcondemns⟩

theorem Condemned.later (hcondemned : first.Condemned past h remover)
    (more : List Happening) : first.Condemned (past ++ more) h remover := by
  obtain ⟨before, happening, after, rfl, hcondemns⟩ := hcondemned
  exact ⟨before, happening, after ++ more, by simp, hcondemns⟩

theorem reader_of_setReader {reader : ReadPump}
    (ht : (hub.setReader g reader).session? g = some t) : t.peer.reader = reader := by
  rw [session?_setReader, if_pos rfl] at ht
  obtain ⟨s, -, rfl⟩ := Option.map_eq_some_iff.mp ht
  rfl

/-- A recording does not choose the targets of its push yet. -/
theorem choosing_of_afterRecording {work : Recording} {recipients : List UserId}
    {broadcast : Broadcast} (h : Job.afterRecording work = .fanningOut recipients broadcast) :
    broadcast = .choosing := by
  unfold Job.afterRecording at h
  split at h
  · cases h
  · cases h
    rfl
  · cases h
  · cases h

/-- A job that pushes has begun to, or has gone on with it. -/
theorem fanningOut_of_handleNext {deadline later : Instant} {job other : Job} {work : Handling}
    {recipients : List UserId} {broadcast : Broadcast}
    (hstep : hub.handleNext g deadline job work = some next) (ht : next.session? g = some t)
    (hreader : t.peer.reader = .handling later other (.fanningOut recipients broadcast)) :
    broadcast = .choosing ∨ ∃ earlier, work = .fanningOut recipients earlier ∧ other = job ∧
      broadcast = (earlier.step (job.message recipients) hub.service.board).1 := by
  unfold handleNext at hstep
  split at hstep
  · obtain rfl := Option.some.inj hstep
    rw [session?_conclude] at ht
    rw [reader_of_setReader ht] at hreader
    cases hreader
  · obtain ⟨⟨work', service, log⟩, hjob, rfl⟩ := Option.map_eq_some_iff.mp hstep
    obtain ⟨rfl, rfl, rfl⟩ :=
      ReadPump.handling.inj ((reader_of_setReader ht).symm.trans hreader)
    rcases job.step_cases deadline hjob with
      ⟨hturns, -⟩ | ⟨recording, wake, time, -, hafter, -⟩ | ⟨users, earlier, rfl, hafter, -⟩
    · cases hturns
    · exact .inl (choosing_of_afterRecording hafter.symm)
    · obtain ⟨rfl, rfl⟩ := Handling.fanningOut.inj hafter
      exact .inr ⟨earlier, rfl, rfl, rfl⟩

/-- A push that is on was on before, or it has just begun, or it has gone on by one step. -/
theorem fanningOut_after (hlength : hub.peers.length = hub.service.board.connections.length)
    {deadline : Instant} {job : Job} {recipients : List UserId} {broadcast : Broadcast}
    (ht : (hub.after happening).session? g = some t)
    (hreader : t.peer.reader = .handling deadline job (.fanningOut recipients broadcast)) :
    (∃ s, hub.session? g = some s ∧ s.peer.reader = t.peer.reader) ∨ broadcast = .choosing ∨
    ∃ cancelFirst s earlier, happening = .read g cancelFirst ∧ hub.session? g = some s ∧
      s.peer.reader = .handling deadline job (.fanningOut recipients earlier) ∧
      broadcast = (earlier.step (job.message recipients) hub.service.board).1 := by
  cases hs : hub.session? g with
  | none =>
      rcases (appears_after hlength hs happening).session with hnone | ⟨identity, transport, hfresh⟩
      · rw [hnone] at ht
        cases ht
      · obtain rfl := Option.some.inj (hfresh.symm.trans ht)
        cases hreader
  | some s =>
      have hkept (hsame : t.peer.reader = s.peer.reader) :
          ∃ old, some s = some old ∧ old.peer.reader = t.peer.reader := ⟨s, rfl, hsame.symm⟩
      obtain ⟨removal, lines, t', hshows, hstep⟩ := shows_after hs happening
      obtain rfl := Option.some.inj (hshows.session.symm.trans ht)
      cases hstep with
      | rest happening => exact .inl (hkept rfl)
      | write hwrites => exact .inl (hkept hwrites.reading_eq.1)
      | touch _ htouched =>
          cases htouched with
          | pushed hpushed => exact .inl (hkept (congrArg Peer.reader hpushed.peer_eq))
          | struck _ _ | arrive _ _ _ | answer _ | resink _ => exact .inl (hkept rfl)
          | lapse _ _ => cases hreader
      | @read cancelFirst _ _ _ hreads =>
          cases hreads with
          | expire _ _ _ _ | cancel _ _ | conclude _ | leave _ | finish _ _ => cases hreader
          | join _ => exact absurd hreader (ReadPump.awaiting_ne_handling _ _ _ _ _)
          | take _ _ _ hleads =>
              cases hleads with
              | pong _ => exact absurd hreader (ReadPump.awaiting_ne_handling _ _ _ _ _)
              | _ => cases hreader
          | @handle earlier work other _ _ hold _ _ =>
              obtain ⟨hpeer, hget, -⟩ := session?_eq_some_iff.mp hs
              have hafter : hub.after (.read g cancelFirst) =
                  (hub.handleNext g earlier work other).getD hub := by
                simp only [after, readStep, hpeer, hget, hold]
              rw [hafter] at ht
              cases hjob : hub.handleNext g earlier work other with
              | none =>
                  rw [hjob] at ht
                  obtain rfl := Option.some.inj (ht.symm.trans hs)
                  exact .inl (hkept rfl)
              | some after =>
                  rw [hjob] at ht
                  rcases fanningOut_of_handleNext hjob ht hreader with
                    rfl | ⟨before, rfl, rfl, rfl⟩
                  · exact .inr (.inl rfl)
                  · obtain rfl : earlier = deadline := (ReadPump.handling.inj hreader).1
                    exact .inr (.inr ⟨cancelFirst, s, before, rfl, rfl, hold, rfl⟩)

/-- Every step keeps what broadcasts suspect. -/
theorem Suspecting.after (hsuspecting : hub.Suspecting fun h => first.Condemned past h .overflow)
    (hlength : hub.peers.length = hub.service.board.connections.length)
    (hhub : first.run past = hub) (happening : Happening) :
    (hub.after happening).Suspecting fun h =>
      first.Condemned (past ++ [happening]) h .overflow := by
  intro g t deadline job recipients broadcast ht hreader
  have hacted := (hub.step_after happening).acted
  have hlater : ∀ h, first.Condemned past h .overflow →
      first.Condemned (past ++ [happening]) h .overflow :=
    fun h hcondemned => hcondemned.later _
  rcases fanningOut_after hlength ht hreader with
    ⟨s, hs, hsame⟩ | rfl | ⟨cancelFirst, s, earlier, rfl, hs, hold, rfl⟩
  · rw [hreader] at hsame
    exact (hsuspecting g s _ _ _ _ hs hsame).mono hacted hlater
  · trivial
  · apply (hsuspecting g s _ _ _ _ hs hold).step hacted hlater
    rintro h todo tally c rfl hget hwanted hfull hpolicy
    subst hhub
    obtain ⟨hpeer, -, -⟩ := session?_eq_some_iff.mp hs
    exact Condemns.condemned
      (.overflow cancelFirst hpolicy hpeer hold hget (by simpa [Job.message] using hwanted) hfull)

end Hub

namespace Session

variable {settings : Settings} {now : Instant} {h : Handle} {happening : Happening}
  {removal : Option Remover} {lines : List LogEvent} {s t : Session}
  {given later : Remover → Prop}

/-- Pumps that were told to leave are not told otherwise. -/
theorem Step.cancelled (hstep : s.Step settings now h happening removal lines t)
    (hcancelled : s.connection.cancelled = true) : t.connection.cancelled = true := by
  cases hstep with
  | rest happening => exact hcancelled
  | write hwrites => exact hwrites.cancelled hcancelled
  | touch _ htouched =>
      cases htouched with
      | pushed hpushed => exact hpushed.cancelled hcancelled
      | struck _ _ => exact cancelled_struck hcancelled
      | arrive _ _ _ | answer _ | resink _ | lapse _ _ => exact hcancelled
  | read hreads =>
      cases hreads with
      | join _ =>
          simp only [joined, setReader]
          split
          · exact hcancelled
          · exact Connection.cancelled_apply .markOpen hcancelled
      | take _ _ _ _ | expire _ _ _ _ | cancel _ _ | conclude _ => exact hcancelled
      | handle _ hpushed _ => exact hpushed.cancelled hcancelled
      | leave _ => exact Connection.cancelled_beginClose _
      | finish _ _ => rfl

/-- A session whose pumps were not told to leave: one that is about to tear it down was given its
cause, and the other has its queue. -/
structure Motivated (given : Remover → Prop) (s : Session) : Prop where
  read : ∀ exit, s.peer.reader = .leaving exit → given .readPump
  wrote : ∀ exit, s.peer.writer = .leaving exit → given .writePump
  unstopped : ∀ exit, s.peer.writer ≠ .closing exit
  alive : s.peer.writer.isRunning = true → s.connection.receiver = .alive

theorem motivated_fresh (identity : Identity) (transport : Transport) (capacity : Nat) :
    (fresh identity transport capacity).Motivated given where
  read := by simp [fresh, Peer.new]
  wrote := by simp [fresh, Peer.new]
  unstopped := by simp [fresh, Peer.new]
  alive := fun _ => rfl

/-- The motives stay with a session whose pumps and queue stay. -/
theorem Motivated.stay (hmotives : s.Motivated given)
    (hlater : ∀ remover, given remover → later remover)
    (hreader : ∀ exit, t.peer.reader = .leaving exit → s.peer.reader = .leaving exit)
    (hwriter : t.peer.writer = s.peer.writer)
    (hreceiver : t.connection.receiver = s.connection.receiver) : t.Motivated later where
  read := fun exit hleaving => hlater _ (hmotives.read exit (hreader exit hleaving))
  wrote := fun exit hleaving => hlater _ (hmotives.wrote exit (hwriter ▸ hleaving))
  unstopped := by
    rw [hwriter]
    exact hmotives.unstopped
  alive := by
    rw [hwriter, hreceiver]
    exact hmotives.alive

theorem Motivated.pushed (hmotives : s.Motivated given)
    (hlater : ∀ remover, given remover → later remover) (hpushed : s.Pushed removal t) :
    t.connection.cancelled = true ∨ t.Motivated later := by
  cases hpushed with
  | spared => exact .inr (hmotives.stay hlater (fun _ => id) rfl rfl)
  | offered envelope =>
      refine .inr (hmotives.stay hlater ?_ rfl ?_)
      · exact fun _ => id
      · simp only [mapConnection]
        rw [Connection.deliver_snd]
  | evicted =>
      cases hregistered : s.registered with
      | true => exact .inl (by simp [struck, hregistered, Connection.cancelled_beginClose])
      | false =>
          right
          exact hmotives.stay hlater (fun _ => id) rfl (by simp [struck, hregistered])

end Session

namespace Hub

variable {hub : Hub} {h : Handle} {happening : Happening} {removal : Option Remover}
  {lines : List LogEvent} {s t : Session} {given later : Remover → Prop}

/-- A step of the write pump is given the cause with which it leaves. -/
theorem motivated_of_writes (hs : hub.session? h = some s) (hmotives : s.Motivated given)
    (hlater : ∀ remover, given remover → later remover)
    (hnew : ∀ remover, hub.Condemns h remover (.write h) → later remover)
    (hsound : s.connection.Sound) (hfree : s.connection.cancelled = false)
    (hwrites : s.Writes hub.settings hub.now removal lines t) :
    t.connection.cancelled = true ∨ t.Motivated later := by
  obtain ⟨hpeer, -, -⟩ := session?_eq_some_iff.mp hs
  have hread (exit : Exit) (hleaving : s.peer.reader = .leaving exit) : later .readPump :=
    hlater _ (hmotives.read exit hleaving)
  cases hwrites with
  | start hwriter _ _ | ping hwriter _ _ _ | send hwriter _ =>
      have halive := hmotives.alive (by rw [hwriter]; rfl)
      exact .inr ⟨hread, by simp [Session.setWriter, Session.written],
        by simp [Session.setWriter, Session.written], fun _ => halive⟩
  | crash hwriter _ _ =>
      exact .inr ⟨hread, by simp [Session.setWriter], by simp [Session.setWriter],
        by simp [Session.setWriter, WritePump.isRunning]⟩
  | stop hwriter hcancelled => exact .inl hcancelled
  | fetch hwriter _ _ =>
      have halive := hmotives.alive (by rw [hwriter]; rfl)
      refine .inr ⟨hread, by simp [Session.setWriter], by simp [Session.setWriter], fun _ => ?_⟩
      simp only [Session.mapConnection, Session.setWriter]
      rw [Connection.receive_snd]
      exact halive
  | disconnect hwriter _ hreceive =>
      have halive := hmotives.alive (by rw [hwriter]; rfl)
      have hnot := Connection.receive_ne_disconnected hsound hfree halive
      exact absurd hreceive (not_or.mpr hnot)
  | fail hwriter hwrite =>
      refine .inr ⟨hread, ?_, by simp [Session.setWriter],
        by simp [Session.setWriter, WritePump.isRunning]⟩
      intro exit _
      exact hnew .writePump (.sink hpeer hwriter hwrite)
  | farewell hwriter _ | giveUp hwriter _ => exact absurd hwriter (hmotives.unstopped _)
  | teardown _ => exact .inl (Connection.cancelled_beginClose _)

/-- A step of the read pump is given the cause with which it leaves. -/
theorem motivated_of_reads {cancelFirst : Bool} (hs : hub.session? h = some s)
    (hmotives : s.Motivated given) (hlater : ∀ remover, given remover → later remover)
    (hnew : ∀ remover, hub.Condemns h remover (.read h cancelFirst) → later remover)
    (hreads : s.Reads hub.settings hub.now cancelFirst removal lines t) :
    t.connection.cancelled = true ∨ t.Motivated later := by
  obtain ⟨hpeer, -, -⟩ := session?_eq_some_iff.mp hs
  -- The write pump and the queue stay as they are, so only the read pump has to say why it leaves.
  have hkeeps (reader : ReadPump) (hleaves : ∀ exit, reader = .leaving exit → later .readPump)
      (u : Session) (hu : u.Motivated later) : (u.setReader reader).Motivated later :=
    ⟨hleaves, hu.wrote, hu.unstopped, hu.alive⟩
  have hsame : s.Motivated later := hmotives.stay hlater (fun _ => id) rfl rfl
  cases hreads with
  | join hreader =>
      have hwaits (exit : Exit)
          (hleaves : ReadPump.awaiting hub.settings hub.now = .leaving exit) : later .readPump :=
        absurd hleaves (ReadPump.awaiting_ne_leaving _ _ exit)
      refine .inr (hkeeps _ hwaits _ (hmotives.stay hlater (fun _ => id) rfl ?_))
      simp only [Session.joined]
      split
      · rfl
      · unfold Connection.markOpen
        split <;> rfl
  | take hreader hinbox _ hleads =>
      refine .inr (hkeeps _ ?_ _ (hmotives.stay hlater (fun _ => id) rfl rfl))
      intro exit hexit
      exact hnew .readPump (.stream cancelFirst hpeer hreader hinbox (hleads.endsStream hexit))
  | expire hreader hinbox hlate _ =>
      refine .inr (hkeeps _ ?_ s hsame)
      intro exit _
      exact hnew .readPump (.deadline cancelFirst hpeer hreader hinbox hlate)
  | cancel _ hcancelled => exact .inl hcancelled
  | handle _ hpushed next =>
      rcases hmotives.pushed hlater hpushed with hcancelled | hpushed
      · exact .inl hcancelled
      · exact .inr (hkeeps _ (by simp) _ hpushed)
  | conclude _ => exact .inr (hkeeps _ (by simp) s hsame)
  | leave _ => exact .inl (Connection.cancelled_beginClose _)
  | finish _ _ => exact .inl rfl

/-- Every step keeps the motives of a session, or its pumps are told to leave. -/
theorem motivated_of_step (hs : hub.session? h = some s) (hmotives : s.Motivated given)
    (hlater : ∀ remover, given remover → later remover)
    (hnew : ∀ remover, hub.Condemns h remover happening → later remover)
    (hsound : s.connection.Sound) (hfree : s.connection.cancelled = false)
    (hstep : s.Step hub.settings hub.now h happening removal lines t) :
    t.connection.cancelled = true ∨ t.Motivated later := by
  have hsame : s.Motivated later := hmotives.stay hlater (fun _ => id) rfl rfl
  cases hstep with
  | rest happening => exact .inr hsame
  | read hreads => exact motivated_of_reads hs hmotives hlater hnew hreads
  | write hwrites => exact motivated_of_writes hs hmotives hlater hnew hsound hfree hwrites
  | touch _ htouched =>
      cases htouched with
      | pushed hpushed => exact hmotives.pushed hlater hpushed
      | struck remover _ =>
          have hevicted : s.Pushed (s.removal .overflow) s.struck := .evicted
          exact hmotives.pushed hlater hevicted
      | arrive _ _ _ | answer _ | resink _ =>
          exact .inr (hmotives.stay hlater (fun _ => id) rfl rfl)
      | lapse hreader _ =>
          refine .inr (hmotives.stay hlater ?_ rfl rfl)
          intro exit hleaving
          cases hleaving

/-- After a run, whoever is about to take a connection off was given the cause. -/
structure Founded (first : Hub) (past : List Happening) : Prop where
  suspects : (first.run past).Suspecting fun h => first.Condemned past h .overflow
  motives : ∀ h s, (first.run past).session? h = some s →
    s.connection.cancelled = true ∨ s.Motivated (first.Condemned past h)

theorem founded_after {first : Hub} {past : List Happening} (hfounded : Founded first past)
    (hlawful : (first.run past).outline.Lawful)
    (hreachable : (first.run past).service.board.Reachable) (happening : Happening) :
    Founded first (past ++ [happening]) := by
  have hlength := length_of_lawful hlawful
  have hrun : first.run (past ++ [happening]) = (first.run past).after happening :=
    run_append first past [happening]
  constructor
  case suspects =>
      rw [hrun]
      exact hfounded.suspects.after hlength rfl happening
  case motives =>
      intro h t ht
      rw [hrun] at ht
      cases hs : (first.run past).session? h with
      | none =>
          rcases (appears_after hlength hs happening).session with
            hnone | ⟨identity, transport, hfresh⟩
          · rw [hnone] at ht
            cases ht
          · obtain rfl := Option.some.inj (hfresh.symm.trans ht)
            exact .inr (Session.motivated_fresh identity transport _)
      | some s =>
          obtain ⟨removal, lines, t', hshows, hstep⟩ := shows_after hs happening
          obtain rfl := Option.some.inj (hshows.session.symm.trans ht)
          obtain ⟨-, hget, -⟩ := session?_eq_some_iff.mp hs
          cases hfree : s.connection.cancelled with
          | true => exact .inl (hstep.cancelled hfree)
          | false =>
              have hmotives := (hfounded.motives h s hs).resolve_left (by simp [hfree])
              exact motivated_of_step hs hmotives (fun _ hgiven => hgiven.later _)
                (fun _ => Condemns.condemned) (hreachable.sound hget) hfree hstep

theorem founded_run {first : Hub} {past : List Happening} (hfounded : Founded first past)
    (hlawful : (first.run past).outline.Lawful)
    (hreachable : (first.run past).service.board.Reachable) (happenings : List Happening) :
    Founded first (past ++ happenings) := by
  induction happenings generalizing past with
  | nil => rwa [List.append_nil]
  | cons happening happenings ih =>
      have hrun : first.run (past ++ [happening]) = (first.run past).run [happening] :=
        run_append first past [happening]
      rw [List.append_cons]
      apply ih (founded_after hfounded hlawful hreachable happening)
      · rw [hrun]
        exact lawful_run hlawful [happening]
      · rw [hrun]
        exact hreachable.acted (acted_run _ [happening])

end Hub

namespace Session

variable {settings : Settings} {now : Instant} {h : Handle} {happening : Happening}
  {removal : Option Remover} {lines : List LogEvent} {s t : Session}

/-- From one session to the next the connection left the registry, or its pumps were told to
leave. -/
def Drops (s t : Session) : Prop :=
  s.registered = true ∧ t.registered = false ∨
    s.connection.cancelled = false ∧ t.connection.cancelled = true

theorem not_drops_of_eq (hregistered : t.registered = s.registered)
    (hcancelled : t.connection.cancelled = s.connection.cancelled) : ¬s.Drops t := by
  rintro (⟨hin, hout⟩ | ⟨hfree, htold⟩)
  · simp_all
  · simp_all

/-- A session that is not registered is struck off in vain. -/
theorem removal_of_drops_struck (remover : Remover) (hdrops : s.Drops s.struck) :
    s.removal remover = some remover := by
  cases hregistered : s.registered with
  | true => simp [Session.removal, hregistered]
  | false =>
      exact absurd hdrops (not_drops_of_eq (by simp [struck, hregistered])
        (by simp [struck, hregistered]))

theorem removal_of_drops_pushed (hpushed : s.Pushed removal t) (hdrops : s.Drops t) :
    removal = some .overflow := by
  cases hpushed with
  | spared => exact absurd hdrops (not_drops_of_eq rfl rfl)
  | offered envelope =>
      refine absurd hdrops (not_drops_of_eq rfl ?_)
      simp only [mapConnection]
      rw [Connection.deliver_snd]
  | evicted => exact removal_of_drops_struck .overflow hdrops

/-- A connection leaves the registry, and its pumps are told to leave, only by somebody who takes it
off. -/
theorem Step.removal_of_drops (hstep : s.Step settings now h happening removal lines t)
    (hagrees : s.peer.reader.Agrees (s.registered = true) s.connection.lifecycle)
    (hwaits : s.peer.reader = .joining → s.peer.writer = .starting)
    (hsound : s.connection.Sound) (hdrops : s.Drops t) : ∃ remover, removal = some remover := by
  -- A pump that tears down a connection that is not registered has nothing to do any more.
  have htorn (remover : Remover) (hjoined : s.peer.reader ≠ .joining)
      (hdrops : s.registered = true ∨ s.connection.cancelled = false) :
      ∃ other, s.removal remover = some other := by
    refine ⟨remover, ?_⟩
    rw [Session.removal, if_pos]
    rcases hdrops with hin | hfree
    · exact hin
    · have hopen := hsound.cancelled_iff
      have hconnecting := hagrees.connecting_iff
      rw [hagrees.registered_iff]
      cases hlife : s.connection.lifecycle <;> simp_all
  have hbefore : s.registered = true ∨ s.connection.cancelled = false :=
    hdrops.imp And.left And.left
  cases hstep with
  | rest happening => exact absurd hdrops (not_drops_of_eq rfl rfl)
  | touch _ htouched =>
      cases htouched with
      | pushed hpushed => exact ⟨_, removal_of_drops_pushed hpushed hdrops⟩
      | struck remover _ => exact ⟨_, removal_of_drops_struck remover hdrops⟩
      | arrive _ _ _ | answer _ | resink _ | lapse _ _ =>
          exact absurd hdrops (not_drops_of_eq rfl rfl)
  | read hreads =>
      cases hreads with
      | join hreader =>
          have hkept : s.joined.connection.cancelled = s.connection.cancelled := by
            simp only [joined]
            split
            · rfl
            · unfold Connection.markOpen
              split <;> rfl
          rw [hreader] at hagrees
          rcases hdrops with ⟨hin, -⟩ | ⟨hfree, htold⟩
          · exact absurd hin hagrees.1
          · rw [← hkept] at hfree
            exact absurd htold (by simp [setReader, hfree])
      | take _ _ _ _ | expire _ _ _ _ | cancel _ _ | conclude _ =>
          exact absurd hdrops (not_drops_of_eq rfl rfl)
      | handle _ hpushed _ => exact ⟨_, removal_of_drops_pushed hpushed hdrops⟩
      | leave hreader => exact htorn _ (by simp [hreader]) hbefore
      | finish hreader _ =>
          rw [hreader] at hagrees
          have hcancelled := hsound.cancelled_iff.mpr (.inl hagrees.2)
          simp [hagrees.1, hcancelled] at hbefore
  | write hwrites =>
      cases hwrites with
      | fetch _ _ _ =>
          refine absurd hdrops (not_drops_of_eq rfl ?_)
          simp only [mapConnection, setWriter]
          rw [Connection.receive_snd]
      | teardown hwriter =>
          refine htorn _ (fun hjoining => ?_) hbefore
          rw [hwaits hjoining] at hwriter
          cases hwriter
      | start _ _ _ | crash _ _ _ | stop _ _ | disconnect _ _ _ | ping _ _ _ _ | send _ _
      | fail _ _ | farewell _ _ | giveUp _ _ => exact absurd hdrops (not_drops_of_eq rfl rfl)

end Session

namespace Hub

variable {first hub : Hub} {past : List Happening} {happening : Happening} {h g : Handle}
  {remover : Remover}

/-- Whoever takes a connection off that is registered was given the cause. -/
theorem condemned_of_removal? (hfounded : Founded first past)
    (hsound : ∀ s, (first.run past).session? h = some s → s.registered = true →
      s.connection.cancelled = false)
    (hinside : happening ≠ .remove h)
    (hremoval : (first.run past).removal? h happening = some remover) :
    first.Condemned (past ++ [happening]) h remover := by
  have hcaller := caller?_of_removal? hremoval
  have hregistered : (first.run past).service.board.contains h = true := by
    rw [removal?] at hremoval
    split at hremoval
    · assumption
    · cases hremoval
  have hmotivated (s : Session) (hs : (first.run past).session? h = some s) :
      s.Motivated (first.Condemned past h) := by
    obtain ⟨-, -, hin⟩ := session?_eq_some_iff.mp hs
    have hfree := hsound s hs (hin.symm.trans hregistered)
    exact (hfounded.motives h s hs).resolve_left (by simp [hfree])
  unfold caller? at hcaller
  split at hcaller
  · next g cancelFirst =>
      split at hcaller
      · next exit hreader =>
          split at hcaller
          · next hsame =>
              subst hsame
              obtain ⟨s, hs, hleaving⟩ := Option.map_eq_some_iff.mp hreader
              obtain rfl := Option.some.inj hcaller
              exact ((hmotivated s hs).read exit hleaving).later _
          · cases hcaller
      · next deadline job work hreader =>
          split at hcaller
          · next hevictee =>
              obtain rfl := Option.some.inj hcaller
              obtain ⟨s, hs, hhandling⟩ := Option.map_eq_some_iff.mp hreader
              obtain ⟨recipients, todo, delivered, rfl⟩ := fanningOut_of_evictee? hevictee
              have hsuspect := hfounded.suspects g s deadline job recipients _ hs hhandling h
                List.mem_cons_self
              exact hsuspect.later _
          · cases hcaller
      · cases hcaller
  · next g =>
      split at hcaller
      · next exit hwriter =>
          split at hcaller
          · next hsame =>
              subst hsame
              obtain ⟨s, hs, hleaving⟩ := Option.map_eq_some_iff.mp hwriter
              obtain rfl := Option.some.inj hcaller
              exact ((hmotivated s hs).wrote exit hleaving).later _
          · cases hcaller
      · cases hcaller
  · obtain rfl := Option.some.inj hcaller
    exact Condemns.condemned .closeAll
  · split at hcaller
    · next hsame => exact absurd (congrArg Happening.remove hsame) hinside
    · cases hcaller
  · cases hcaller

/-- Nobody is about to take anybody off a hub that has just begun. -/
theorem founded_start (settings : Settings) (handlerTimeout : Duration) (store : Store)
    (faults : Faults) (start : Timestamp) (router : Router Handler) :
    Founded ((Hub.new settings handlerTimeout store faults start).withRouter router) [] where
  suspects := by
    intro g s _ _ _ _ hs
    cases hs
  motives := by
    intro h s hs
    cases hs

theorem session?_of_connection
    (hlength : hub.peers.length = hub.service.board.connections.length) {c : Connection}
    (hget : hub.connection? h = some c) : ∃ s, hub.session? h = some s := by
  have hlt : h < hub.peers.length := hlength ▸ Switchboard.lt_of_get? hget
  obtain ⟨s, hs, -⟩ := session?_of_peer hlength (List.getElem?_eq_getElem hlt)
  exact ⟨s, hs⟩

/-- The policy that a run began with decides whether a full queue is a cause. -/
theorem Condemned.policy (h : first.Condemned past g .overflow) :
    first.service.board.policy = .disconnect := by
  obtain ⟨before, happening, after, -, hcondemns⟩ := h
  cases hcondemns with
  | overflow _ hpolicy => exact (acted_run first before).policy_eq.symm.trans hpolicy

/-- In every run a connection leaves the registry, and its pumps are told to leave, only for a
cause: its own read pump takes it off after its stream ended, failed or carried a frame that is too
large, or after no pong came in time; its own write pump after a write to its own sink failed;
whoever closes all connections; or, if the policy is to disconnect, a broadcast that was meant for
its user after it found its queue full. The only other way is a removal from outside the hub. -/
theorem removed_for_cause (settings : Settings) (handlerTimeout : Duration) (store : Store)
    (faults : Faults) (start : Timestamp) (router : Router Handler) (happenings : List Happening)
    (happening : Happening) (h : Handle) (hinside : happening ≠ .remove h) :
    let first := (Hub.new settings handlerTimeout store faults start).withRouter router
    let hub := first.run happenings
    let next := hub.after happening
    h ∈ hub.service.board.members ∧ h ∉ next.service.board.members ∨
      (∃ c d, hub.connection? h = some c ∧ next.connection? h = some d ∧
        c.cancelled = false ∧ d.cancelled = true) →
    ∃ remover, hub.removal? h happening = some remover ∧
      first.Condemned (happenings ++ [happening]) h remover ∧
      (remover = .overflow → settings.overflowPolicy = .disconnect) := by
  intro first hub next hdropped
  have hlawful := lawful_new settings handlerTimeout store faults start router
  have hnow : hub.outline.Lawful := lawful_run hlawful happenings
  have hempty : first.service.board.Reachable := .empty settings.overflowPolicy
  have hreachable : hub.service.board.Reachable := hempty.acted (acted_run first happenings)
  have hfounded : Founded first happenings :=
    founded_run (founded_start settings handlerTimeout store faults start router) hlawful hempty
      happenings
  have hlength := length_of_lawful hnow
  obtain ⟨s, hs⟩ : ∃ s, hub.session? h = some s := by
    rcases hdropped with ⟨hin, -⟩ | ⟨c, -, hget, -⟩
    · obtain ⟨c, hget⟩ := Switchboard.exists_get?_of_mem hin
      exact session?_of_connection hlength hget
    · exact session?_of_connection hlength hget
  obtain ⟨hpeer, hget, hregistered⟩ := session?_eq_some_iff.mp hs
  have hsound := hreachable.sound hget
  have hagrees : s.peer.reader.Agrees (s.registered = true) s.connection.lifecycle := by
    have hmember := hnow.agrees h _ _ (readers_of_peer hpeer) hget
    rw [← hregistered, Switchboard.contains_iff]
    exact hmember
  obtain ⟨removal, lines, t, hshows, hstep⟩ := shows_after hs happening
  obtain ⟨-, htget, htregistered⟩ := session?_eq_some_iff.mp hshows.session
  have hwaits (hjoining : s.peer.reader = .joining) : s.peer.writer = .starting := by
    have hstarting := hnow.waits h (hjoining ▸ readers_of_peer hpeer)
    exact Option.some.inj ((writers_of_peer hpeer).symm.trans hstarting)
  have hdrops : s.Drops t := by
    rcases hdropped with ⟨hin, hout⟩ | ⟨c, d, hc, hd, hfree, htold⟩
    · left
      constructor
      · exact hregistered.symm.trans ((Switchboard.contains_iff _ h).mpr hin)
      · rw [← htregistered, Bool.eq_false_iff]
        exact fun hstill => hout ((Switchboard.contains_iff _ h).mp hstill)
    · right
      obtain rfl := Option.some.inj (hget.symm.trans hc)
      obtain rfl := Option.some.inj (htget.symm.trans hd)
      exact ⟨hfree, htold⟩
  obtain ⟨remover, rfl⟩ := hstep.removal_of_drops hagrees hwaits hsound hdrops
  have hfree : ∀ s' : Session, hub.session? h = some s' → s'.registered = true →
      s'.connection.cancelled = false := by
    intro s' hs' hin
    obtain rfl := Option.some.inj (hs.symm.trans hs')
    rw [Bool.eq_false_iff, Ne, hsound.cancelled_iff, hagrees.registered_iff.mp hin]
    simp
  have hcondemned := condemned_of_removal? hfounded hfree hinside hshows.removal
  refine ⟨remover, hshows.removal, hcondemned, ?_⟩
  rintro rfl
  exact hcondemned.policy

/-- One of two peers sends what is no envelope and stays, the other closes its stream and is taken
off. -/
theorem closing_peer_removed_for_cause :
    let first := (Hub.new .standard ⟨10, 0, by decide, by decide⟩ .empty .none ⟨0, 0⟩).withRouter
      .empty
    let happenings := [.accept ⟨⟨1⟩, .user⟩ .direct, .accept ⟨⟨2⟩, .user⟩ .direct, .read 0 true,
      .read 1 true, .arrive 1 (.text "no envelope"), .read 1 true, .arrive 0 .close, .read 0 true]
    Happening.read 0 true ≠ .remove 0 ∧
    0 ∈ (first.run happenings).service.board.members ∧
    ((first.run happenings).after (.read 0 true)).service.board.members = [1] ∧
    ∃ remover, (first.run happenings).removal? 0 (.read 0 true) = some remover ∧
      first.Condemned (happenings ++ [.read 0 true]) 0 remover := by
  intro first happenings
  have hinside : Happening.read 0 true ≠ .remove 0 := by
    intro h
    cases h
  have hin : 0 ∈ (first.run happenings).service.board.members := by decide +kernel
  have hleft : ((first.run happenings).after (.read 0 true)).service.board.members = [1] := by
    decide +kernel
  have hout : 0 ∉ ((first.run happenings).after (.read 0 true)).service.board.members := by
    simp [hleft]
  obtain ⟨remover, hremoval, hcondemned, -⟩ := removed_for_cause .standard
    ⟨10, 0, by decide, by decide⟩ .empty .none ⟨0, 0⟩ .empty happenings (.read 0 true) 0 hinside
    (.inl ⟨hin, hout⟩)
  exact ⟨hinside, hin, hleft, remover, hremoval, hcondemned⟩

end Hub

end ListingHub
