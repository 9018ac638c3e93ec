import ListingHub.Proofs.Hub.Schedule
import ListingHub.Proofs.Session.View

/-!
# Steps of a read pump

A step of a read pump is one of `Reads` for its own session. Another session it can only push to.
-/

namespace ListingHub

namespace Hub

variable {hub next : Hub} {h g : Handle} {s t : Session}

theorem quiet_fullEntry (board : Switchboard) (h : Handle) : Quiet (board.fullEntry h) := by
  unfold Switchboard.fullEntry
  cases board.get? h with
  | none => exact quiet_nil
  | some c => exact quiet_singleton rfl

theorem quiet_offer (board : Switchboard) (envelope : Envelope) (tally : Tally) (h : Handle) :
    Quiet (board.offer envelope tally h).2.2 := by
  unfold Switchboard.offer
  split
  · exact quiet_nil
  · exact quiet_nil
  · split
    · exact quiet_fullEntry _ h
    · exact quiet_fullEntry _ h

/-- A job tells of no connection's life. -/
theorem quiet_step {job : Job} {service after : Service} {now : Instant} {work next : Handling}
    {log : List Entry} (hstep : job.step service now work = some (next, after, log)) :
    Quiet log := by
  unfold Job.step at hstep
  split at hstep
  · simp only at hstep
    split at hstep
    · obtain ⟨-, -, rfl⟩ := by simpa [Job.record] using hstep
      exact quiet_nil
    · obtain ⟨-, -, rfl⟩ := by simpa using hstep
      exact quiet_nil
  · split at hstep
    · obtain ⟨-, -, rfl⟩ := by simpa [Job.record] using hstep
      exact quiet_nil
    · split at hstep
      · obtain ⟨-, -, rfl⟩ := by simpa using hstep
        exact quiet_nil
      · cases hstep
  · obtain ⟨-, -, rfl⟩ := by simpa using hstep
    exact quiet_singleton rfl
  · next recipients broadcast _ =>
      obtain ⟨-, -, rfl⟩ := by simpa using hstep
      cases broadcast with
      | choosing | finished delivered => exact quiet_nil
      | delivering todo tally =>
          cases todo with
          | nil => exact quiet_nil
          | cons h todo => exact quiet_offer _ _ _ h
      | evicting todo delivered =>
          cases todo with
          | nil => exact quiet_nil
          | cons h todo => exact quiet_nil
  · cases hstep

@[simp]
theorem session?_conclude (hub : Hub) (g h : Handle) (user : UserId) (eventType : String)
    (outcome : Except Failure Unit) :
    (hub.conclude g user eventType outcome).session? h = hub.session? h := by
  cases outcome <;> rfl

@[simp]
theorem milestones_conclude (hub : Hub) (g h : Handle) (user : UserId) (eventType : String)
    (outcome : Except Failure Unit) :
    (hub.conclude g user eventType outcome).milestones h = hub.milestones h := by
  cases outcome with
  | ok _ => rfl
  | error failure =>
      rw [conclude, notProcessed, milestones_log, (quiet_singleton rfl).milestonesOf,
        List.append_nil]

@[simp]
theorem settings_conclude (hub : Hub) (g : Handle) (user : UserId) (eventType : String)
    (outcome : Except Failure Unit) :
    (hub.conclude g user eventType outcome).settings = hub.settings := by
  cases outcome <;> rfl

/-- From one hub to the next a read pump has moved, and no session shows more. -/
structure Moved (hub : Hub) (g : Handle) (reader : ReadPump) (next : Hub) : Prop where
  session : ∀ h, next.session? h = (hub.setReader g reader).session? h
  milestones : ∀ h, next.milestones h = hub.milestones h
  now : next.now = hub.now
  settings : next.settings = hub.settings

theorem moved_setReader (hub : Hub) (g : Handle) (reader : ReadPump) :
    Moved hub g reader (hub.setReader g reader) :=
  ⟨fun _ => rfl, fun _ => rfl, rfl, rfl⟩

theorem Moved.conclude {reader : ReadPump} (hmoved : Moved hub g reader next) (k : Handle)
    (user : UserId) (eventType : String) (outcome : Except Failure Unit) :
    Moved hub g reader (next.conclude k user eventType outcome) where
  session := fun h => by rw [session?_conclude, hmoved.session]
  milestones := fun h => by rw [milestones_conclude, hmoved.milestones]
  now := by rw [now_conclude, hmoved.now]
  settings := by rw [settings_conclude, hmoved.settings]

variable {deadline : Instant} {arrival : Arrival} {data : List UInt8}

/-- Routing goes on waiting or begins a job. -/
theorem moved_route (hub : Hub) (g : Handle) (user : UserId) (deadline : Instant)
    (envelope : Envelope) :
    Moved hub g (.waiting deadline) (hub.route g user deadline envelope) ∨
      ∃ job, Moved hub g (.handling deadline job (.recording .lookingUp none))
        (hub.route g user deadline envelope) := by
  have hwaiting := moved_setReader hub g (.waiting deadline)
  unfold route
  split
  · exact .inl (hwaiting.conclude g user _ (.error (.unknownEventType envelope.eventType)))
  · next tag fails _ =>
      have hprobed : Moved hub g (.waiting deadline)
          { hub.setReader g (.waiting deadline) with
            service := (hub.service.probe tag fails user envelope).2 } :=
        ⟨hwaiting.session, hwaiting.milestones, rfl, rfl⟩
      exact .inl (hprobed.conclude g user _ _)
  · split
    · next failure _ => exact .inl (hwaiting.conclude g user _ (.error failure))
    · next job _ => exact .inr ⟨job, moved_setReader hub g _⟩

theorem moved_takeData (hub : Hub) (g : Handle) (user : UserId) (deadline : Instant)
    (hdata : arrival.data? = some data) :
    ∃ reader, arrival.Leads hub.settings hub.now deadline reader ∧
      Moved hub g reader (hub.takeData g user deadline data) := by
  unfold takeData
  split
  · next hlarge => exact ⟨_, .tooLarge hdata hlarge, moved_setReader hub g _⟩
  · next hsmall =>
      have hsmall := Nat.le_of_not_lt hsmall
      split
      · next failure _ =>
          refine ⟨_, .passed hdata hsmall, fun _ => rfl, ?_, rfl, rfl⟩
          intro h
          have hlogged := milestones_log hub [(some g, .undecodable failure)] h
          rw [(quiet_singleton rfl).milestonesOf, List.append_nil] at hlogged
          exact hlogged
      · next envelope _ =>
          rcases hub.moved_route g user deadline envelope with hmoved | ⟨job, hmoved⟩
          · exact ⟨_, .passed hdata hsmall, hmoved⟩
          · exact ⟨_, .begun hdata hsmall job, hmoved⟩

/-- Taking an arrival moves a read pump as it leads. -/
theorem moved_take (hub : Hub) (g : Handle) (user : UserId) (deadline : Instant)
    (arrival : Arrival) :
    ∃ reader, arrival.Leads hub.settings hub.now deadline reader ∧
      Moved hub g reader (hub.take g user deadline arrival) := by
  cases arrival with
  | text data => exact moved_takeData hub g user deadline rfl
  | binary data => exact moved_takeData hub g user deadline rfl
  | pong size => exact ⟨_, .pong size, moved_setReader hub g _⟩
  | ping size => exact ⟨_, .ping size, moved_setReader hub g _⟩
  | close => exact ⟨_, .close, moved_setReader hub g _⟩
  | ended => exact ⟨_, .ended, moved_setReader hub g _⟩
  | failure reason => exact ⟨_, .failure reason, moved_setReader hub g _⟩

/-- A step of a broadcast offers its envelope to a session, evicts it or spares it. -/
theorem pushed_broadcast_step (hub : Hub) (message : Message) (broadcast : Broadcast)
    (h : Handle) :
    ∃ push : Session → Session,
      (hub.mapBoard fun board => (broadcast.step message board).2.1).session? h =
        (hub.session? h).map push ∧
      ∀ s : Session, s.Pushed (if broadcast.evictee? = some h then s.removal .overflow else none)
        (push s) := by
  cases broadcast with
  | choosing | finished delivered => exact ⟨id, Option.map_id_apply.symm, fun _ => .spared⟩
  | delivering todo tally =>
      cases todo with
      | nil => exact ⟨id, Option.map_id_apply.symm, fun _ => .spared⟩
      | cons target todo =>
          refine ⟨_, hub.session?_mapBoard_of_members
            (hub.service.board.get?_offer message.envelope tally target h)
            (Switchboard.members_offer _ _ _ _), ?_⟩
          intro s
          by_cases hh : h = target
          · simp only [hh, if_true]
            exact .offered message.envelope
          · simp only [hh, if_false]
            exact .spared
  | evicting todo delivered =>
      cases todo with
      | nil => exact ⟨id, Option.map_id_apply.symm, fun _ => .spared⟩
      | cons target todo =>
          have hremoved := hub.session?_remove target h
          by_cases hh : h = target
          · subst hh
            rw [if_pos rfl] at hremoved
            refine ⟨Session.struck, hremoved, ?_⟩
            intro s
            rw [Broadcast.evictee?, if_pos rfl]
            exact .evicted
          · rw [if_neg hh] at hremoved
            refine ⟨id, hremoved.trans Option.map_id_apply.symm, ?_⟩
            intro s
            rw [Broadcast.evictee?, if_neg (by simpa using Ne.symm hh)]
            exact .spared

/-- So does a step of a job. -/
theorem pushed_jobStep {job : Job} {work work' : Handling} {service : Service} {log : List Entry}
    (hstep : job.step hub.service hub.now work = some (work', service, log)) (h : Handle) :
    ∃ push : Session → Session,
      ({ hub with service } : Hub).session? h = (hub.session? h).map push ∧
      ∀ s : Session, s.Pushed (if work.evictee? = some h then s.removal .overflow else none)
        (push s) := by
  rcases job.step_cases 0 hstep with ⟨hturns, rfl⟩ | ⟨recording, wake, time, rfl, -, rfl⟩ |
    ⟨recipients, broadcast, rfl, -, rfl⟩
  · have hnone : work.evictee? = none := by
      cases hturns <;> rfl
    refine ⟨id, Option.map_id_apply.symm, ?_⟩
    intro s
    rw [hnone, if_neg (by simp)]
    exact .spared
  · exact ⟨id, Option.map_id_apply.symm, fun _ => .spared⟩
  · exact hub.pushed_broadcast_step (job.message recipients) broadcast h

/-- A step of a handling that has not ended. -/
theorem pushed_handleNext {job : Job} {work : Handling}
    (hwork : ∀ outcome, work ≠ .finished outcome)
    (hnext : hub.handleNext g deadline job work = some next) (h : Handle) :
    ∃ work' between push, next = (between : Hub).setReader g (.handling deadline job work') ∧
      between.session? h = (hub.session? h).map push ∧
      (∀ s : Session, s.Pushed (if work.evictee? = some h then s.removal .overflow else none)
        (push s)) ∧
      between.milestones h = hub.milestones h ∧ between.now = hub.now ∧
      between.settings = hub.settings := by
  unfold handleNext at hnext
  split at hnext
  · next outcome => exact absurd rfl (hwork outcome)
  · obtain ⟨⟨work', service, log⟩, hstep, rfl⟩ := Option.map_eq_some_iff.mp hnext
    obtain ⟨push, hsession, hpushed⟩ := hub.pushed_jobStep hstep h
    refine ⟨work', _, push, rfl, hsession, hpushed, ?_, rfl, rfl⟩
    have hlogged := milestones_log { hub with service } log h
    rw [(quiet_step hstep).milestonesOf, List.append_nil] at hlogged
    exact hlogged

theorem caller?_read (hs : hub.session? g = some s) (h : Handle) (cancelFirst : Bool) :
    hub.caller? h (.read g cancelFirst) =
      match s.peer.reader with
      | .leaving _ => if g = h then some .readPump else none
      | .handling _ _ work => if work.evictee? = some h then some .overflow else none
      | _ => none := by
  simp only [caller?, hs, Option.map_some]
  cases s.peer.reader <;> rfl

/-- Registration tells that the connection is opened. -/
theorem milestones_join (hub : Hub) (g h : Handle) (c : Connection) :
    (hub.join g c).milestones h =
      hub.milestones h ++ if h = g then [.opened c.identity] else [] := by
  have hlogged : (hub.join g c).milestones h =
      hub.milestones h ++ milestonesOf h [(some g, .opened c.identity)] := milestones_log _ _ h
  rw [hlogged]
  by_cases hg : h = g
  · simp [milestonesOf, LogEvent.isMilestone, hg]
  · simp [milestonesOf, hg, Ne.symm hg]

theorem session?_join (hub : Hub) (g h : Handle) (c : Connection) :
    (hub.join g c).session? h =
      if h = g then (hub.session? h).map fun s =>
        s.joined.setReader (.awaiting hub.settings hub.now)
      else hub.session? h := by
  rw [join, session?_setReader, session?_log, session?_add]
  split
  · rw [Option.map_map]
    rfl
  · rfl

/-- The waiting read pump of a session takes what arrived first, or leaves because its time is
up. -/
theorem takeNext_cases {user : UserId}
    (htake : hub.takeNext g s.peer user deadline = some next) :
    (∃ arrival inbox reader, s.peer.inbox = arrival :: inbox ∧
      arrival.Leads hub.settings hub.now deadline reader ∧
      Moved (hub.modifyPeer g fun peer => { peer.fetch inbox with
        sink := answer peer.transport arrival peer.sink }) g reader next) ∨
    (s.peer.inbox = [] ∧ deadline ≤ hub.now ∧
      next = hub.setReader g (.leaving .deadlineExceeded)) := by
  unfold takeNext at htake
  split at htake
  · next arrival inbox hinbox =>
      obtain rfl := Option.some.inj htake
      obtain ⟨reader, hleads, hmoved⟩ := moved_take
        (hub.modifyPeer g fun peer =>
          { peer.fetch inbox with sink := answer peer.transport arrival peer.sink })
        g user deadline arrival
      exact .inl ⟨arrival, inbox, reader, hinbox, hleads, hmoved⟩
  · next hinbox =>
      split at htake
      · next hlate => exact .inr ⟨hinbox, hlate, (Option.some.inj htake).symm⟩
      · cases htake

/-- Only the read pump of a session takes steps. -/
theorem session?_of_readStep {cancelFirst : Bool} (hstep : readStep cancelFirst g hub = some next) :
    ∃ s, hub.session? g = some s := by
  unfold readStep at hstep
  split at hstep
  · next peer c hpeer hget =>
      exact ⟨⟨peer, c, _⟩, session?_eq_some_iff.mpr ⟨hpeer, hget, rfl⟩⟩
  · cases hstep

/-- A read pump that waits takes nobody off. -/
theorem caller?_read_of_none (h : Handle) {cancelFirst : Bool}
    (hstep : readStep cancelFirst g hub = none) : hub.caller? h (.read g cancelFirst) = none := by
  cases hown : hub.session? g with
  | none => rw [caller?, hown]; rfl
  | some own =>
      obtain ⟨hpeer, hget, -⟩ := session?_eq_some_iff.mp hown
      rw [caller?_read hown]
      simp only [readStep, hpeer, hget] at hstep
      cases hreader : own.peer.reader with
      | joining | waiting deadline | draining exit | done exit | crashed => rfl
      | leaving exit =>
          rw [hreader] at hstep
          cases hstep
      | handling deadline job work =>
          simp only [hreader] at hstep ⊢
          rw [if_neg]
          intro hevictee
          cases work with
          | recording recording wake | finished outcome => cases hevictee
          | fanningOut recipients broadcast =>
              cases broadcast with
              | choosing | delivering todo tally | finished delivered => cases hevictee
              | evicting todo delivered => cases hstep

/-- A waiting read pump takes what arrived, misses its deadline or sees that it was told to
leave. -/
theorem reads_waiting (hs : hub.session? h = some s) {deadline : Instant}
    (hreader : s.peer.reader = .waiting deadline) {cancelFirst : Bool}
    (hremoval : hub.removal? h (.read h cancelFirst) = none)
    (hstep : (if s.connection.cancelled &&
        (cancelFirst || (hub.takeNext h s.peer s.connection.user deadline).isNone) then
          some (hub.setReader h (.leaving .cancelled))
        else hub.takeNext h s.peer s.connection.user deadline) = some next) :
    ∃ t, hub.Shows (.read h cancelFirst) h next none [] t ∧
      s.Reads hub.settings hub.now cancelFirst none [] t := by
  have hmoved : ∀ reader, hub.Shows (.read h cancelFirst) h (hub.setReader h reader) none []
      (s.setReader reader) := by
    intro reader
    refine ⟨?_, hremoval, (List.append_nil _).symm, rfl, rfl⟩
    rw [session?_setReader, if_pos rfl, hs]
    rfl
  split at hstep
  · next hcancel =>
      obtain rfl := Option.some.inj hstep
      have hcancelled : s.connection.cancelled = true := by
        simp only [Bool.and_eq_true] at hcancel
        exact hcancel.1
      exact ⟨_, hmoved _, .cancel hreader hcancelled⟩
  · next hgo =>
      have hfree : ¬(s.connection.cancelled = true ∧ cancelFirst = true) := by
        rintro ⟨hcancelled, hfirst⟩
        simp [hcancelled, hfirst] at hgo
      rcases takeNext_cases hstep with
        ⟨arrival, inbox, reader, hinbox, hleads, htaken⟩ | ⟨hinbox, hlate, rfl⟩
      · refine ⟨_, ⟨?_, hremoval, ?_, htaken.now, htaken.settings⟩,
          .take hreader hinbox hfree hleads⟩
        · rw [htaken.session, session?_setReader, if_pos rfl, session?_modifyPeer, if_pos rfl, hs]
          rfl
        · rw [htaken.milestones, List.append_nil]
          rfl
      · exact ⟨_, hmoved _, .expire hreader hinbox hlate hfree⟩

/-- A read pump that handles an event goes on with that or concludes it. -/
theorem reads_handling (hs : hub.session? h = some s) {deadline : Instant} {job : Job}
    {work : Handling} (hreader : s.peer.reader = .handling deadline job work) (cancelFirst : Bool)
    (hstep : hub.handleNext h deadline job work = some next) :
    ∃ removal t, hub.Shows (.read h cancelFirst) h next removal [] t ∧
      s.Reads hub.settings hub.now cancelFirst removal [] t := by
  have hremoval := removal?_eq hs (.read h cancelFirst)
  rw [caller?_read hs, hreader] at hremoval
  by_cases hwork : ∃ outcome, work = .finished outcome
  · obtain ⟨outcome, rfl⟩ := hwork
    obtain rfl := Option.some.inj hstep
    refine ⟨_, _, ⟨?_, hremoval, ?_, now_conclude _ _ _ _ _, settings_conclude _ _ _ _ _⟩,
      .conclude hreader⟩
    · rw [session?_conclude, session?_setReader, if_pos rfl, hs]
      rfl
    · rw [milestones_conclude, List.append_nil]
      rfl
  · obtain ⟨work', between, push, rfl, hsession, hpushed, hmilestones, hnow, hsettings⟩ :=
      pushed_handleNext (fun outcome heq => hwork ⟨outcome, heq⟩) hstep h
    refine ⟨_, _, ⟨?_, ?_, ?_, hnow, hsettings⟩, .handle hreader (hpushed s) work'⟩
    · rw [session?_setReader, if_pos rfl, hsession, hs]
      rfl
    · rw [hremoval]
      dsimp only
      split <;> rfl
    · rw [List.append_nil]
      exact hmilestones

/-- Closing tells that the connection is closed. -/
theorem milestones_markClosed (hub : Hub) (g h : Handle) (user : UserId) (exit : Exit)
    (write : String) :
    ((hub.mapBoard fun board => board.modify g Connection.markClosed).log
      [(some g, .closed user exit write)]).milestones h =
      hub.milestones h ++ if h = g then [.closed user exit write] else [] := by
  rw [milestones_log]
  by_cases hg : h = g
  · simp [milestonesOf, LogEvent.isMilestone, hg, milestones, mapBoard]
  · simp [milestonesOf, hg, Ne.symm hg, milestones, mapBoard]

/-- A step of the read pump of a session. -/
theorem reads_readStep (hs : hub.session? h = some s) {cancelFirst : Bool}
    (hstep : readStep cancelFirst h hub = some next) :
    ∃ removal lines t, hub.Shows (.read h cancelFirst) h next removal lines t ∧
      s.Reads hub.settings hub.now cancelFirst removal lines t := by
  obtain ⟨hpeer, hget, -⟩ := session?_eq_some_iff.mp hs
  have hremoval := removal?_eq hs (.read h cancelFirst)
  rw [caller?_read hs] at hremoval
  simp only [readStep, hpeer, hget] at hstep
  split at hstep
  · next hreader =>
      rw [hreader] at hremoval
      obtain rfl := Option.some.inj hstep
      refine ⟨_, _, _, ⟨?_, hremoval, ?_, rfl, rfl⟩, .join hreader⟩
      · rw [session?_join, if_pos rfl, hs]
        rfl
      · rw [milestones_join, if_pos rfl]
  · next deadline hreader =>
      rw [hreader] at hremoval
      obtain ⟨t, hshows, hreads⟩ := reads_waiting hs hreader hremoval hstep
      exact ⟨_, _, t, hshows, hreads⟩
  · next deadline job work hreader =>
      obtain ⟨removal, t, hshows, hreads⟩ := reads_handling hs hreader cancelFirst hstep
      exact ⟨removal, _, t, hshows, hreads⟩
  · next exit hreader =>
      rw [hreader] at hremoval
      obtain rfl := Option.some.inj hstep
      refine ⟨_, _, _, ⟨?_, ?_, ?_, rfl, rfl⟩, .leave hreader⟩
      · rw [session?_setReader, if_pos rfl, session?_teardown, if_pos rfl, hs]
        rfl
      · rw [hremoval, if_pos rfl]
        rfl
      · exact milestones_teardown_self hs exit
  · next exit hreader =>
      rw [hreader] at hremoval
      obtain ⟨write, hended, rfl⟩ := Option.map_eq_some_iff.mp hstep
      refine ⟨_, _, _, ⟨?_, hremoval, ?_, rfl, rfl⟩, .finish hreader hended⟩
      · rw [session?_setReader, if_pos rfl, session?_log, session?_modify, if_pos rfl, hs]
        rfl
      · have hclosed := hub.milestones_markClosed h h s.connection.user exit write
        rw [if_pos rfl] at hclosed
        exact hclosed
  · cases hstep
  · cases hstep

theorem passes_takeNext (hne : h ≠ g) {user : UserId}
    (htake : hub.takeNext g s.peer user deadline = some next) : hub.Passes h next := by
  rcases takeNext_cases htake with ⟨arrival, inbox, reader, -, -, hmoved⟩ | ⟨-, -, rfl⟩
  · refine ⟨?_, hmoved.milestones h, hmoved.now, hmoved.settings⟩
    rw [hmoved.session, session?_setReader, if_neg hne, session?_modifyPeer, if_neg hne]
  · exact passes_setReader hub hne _

theorem pushed_handling (hne : h ≠ g) {job : Job} {work : Handling} {cancelFirst : Bool}
    (hcaller : hub.caller? h (.read g cancelFirst) =
      if work.evictee? = some h then some .overflow else none)
    (hstep : hub.handleNext g deadline job work = some next) :
    hub.PushedTo (.read g cancelFirst) h next := by
  by_cases hwork : ∃ outcome, work = .finished outcome
  · obtain ⟨outcome, rfl⟩ := hwork
    obtain rfl := Option.some.inj hstep
    refine Passes.pushedTo ⟨?_, milestones_conclude _ _ _ _ _ _, now_conclude _ _ _ _ _,
      settings_conclude _ _ _ _ _⟩ hcaller
    rw [session?_conclude, session?_setReader, if_neg hne]
  · obtain ⟨work', between, push, rfl, hsession, hpushed, hmilestones, hnow, hsettings⟩ :=
      pushed_handleNext (fun outcome heq => hwork ⟨outcome, heq⟩) hstep h
    refine ⟨⟨push, ?_, ?_⟩, hmilestones, hnow, hsettings⟩
    · rw [session?_setReader, if_neg hne, hsession]
    · intro s
      have hpush := hpushed s
      rw [hcaller]
      split at hpush
      · next hevicts => rwa [if_pos hevicts]
      · next hspares => rwa [if_neg hspares]

/-- A step of another read pump pushes to a session at most. -/
theorem pushed_readStep (hne : h ≠ g) {cancelFirst : Bool}
    (hstep : readStep cancelFirst g hub = some next) :
    hub.PushedTo (.read g cancelFirst) h next := by
  obtain ⟨own, hown⟩ := session?_of_readStep hstep
  have hcaller := caller?_read hown h cancelFirst
  obtain ⟨hpeer, hget, -⟩ := session?_eq_some_iff.mp hown
  simp only [readStep, hpeer, hget] at hstep
  split at hstep
  · next hreader =>
      rw [hreader] at hcaller
      obtain rfl := Option.some.inj hstep
      refine Passes.pushedTo ⟨?_, ?_, rfl, rfl⟩ hcaller
      · rw [session?_join, if_neg hne]
      · rw [milestones_join, if_neg hne, List.append_nil]
  · next deadline hreader =>
      rw [hreader] at hcaller
      split at hstep
      · obtain rfl := Option.some.inj hstep
        exact (passes_setReader hub hne _).pushedTo hcaller
      · exact (passes_takeNext hne hstep).pushedTo hcaller
  · next deadline job work hreader =>
      rw [hreader] at hcaller
      exact pushed_handling hne hcaller hstep
  · next exit hreader =>
      rw [hreader] at hcaller
      obtain rfl := Option.some.inj hstep
      refine Passes.pushedTo ⟨?_, hub.milestones_teardown_of_ne hne exit, rfl, rfl⟩
        (hcaller.trans (if_neg (Ne.symm hne)))
      rw [session?_setReader, if_neg hne, session?_teardown, if_neg hne]
  · next exit hreader =>
      rw [hreader] at hcaller
      obtain ⟨write, -, rfl⟩ := Option.map_eq_some_iff.mp hstep
      refine Passes.pushedTo ⟨?_, ?_, rfl, rfl⟩ hcaller
      · rw [session?_setReader, if_neg hne, session?_log, session?_modify, if_neg hne]
      · have hclosed := hub.milestones_markClosed g h own.connection.user exit write
        rw [if_neg hne, List.append_nil] at hclosed
        exact hclosed
  · cases hstep
  · cases hstep

end Hub

end ListingHub
