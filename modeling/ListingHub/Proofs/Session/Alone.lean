import ListingHub.Proofs.Configuration
import ListingHub.Proofs.Handling
import ListingHub.Proofs.Session.Listening

/-!
# A read pump that has the hub to itself

With nothing in between, the steps of a read pump and of the handlers that it runs come to what
`Service.route` does for one envelope after another, and the pump gets through its inbox or to the
arrival that stops it, unless its clock cannot tell a deadline on the way. In any other run it does
the same as far as it gets.
-/

namespace ListingHub

/-- What becomes of a service when envelopes of a connection are routed one after another, with
nothing in between but time. -/
inductive Service.Routed (h : Handle) (user : UserId) :
    Service → List Envelope → Service → Prop
  | nil (service : Service) : Routed h user service [] service
  | cons {service last : Service} {envelope : Envelope} {rest : List Envelope} (now : Instant)
      (hrest : Routed h user (service.route now h user envelope).2.1 rest last) :
      Routed h user service (envelope :: rest) last

theorem Service.Routed.append {h : Handle} {user : UserId} {service between last : Service}
    {envelopes more : List Envelope} (hfirst : Service.Routed h user service envelopes between)
    (hlast : Service.Routed h user between more last) :
    Service.Routed h user service (envelopes ++ more) last := by
  induction hfirst with
  | nil service => exact hlast
  | cons now _ ih => exact .cons now (ih hlast)

/-- A pause that is not over ends later, and so does its limit. -/
theorem Job.lt_of_step_none {job : Job} {service : Service} {now wake : Instant}
    {work : Recording} (hwaits : job.step service now (.recording work (some wake)) = none) :
    now < wake ∧ now < job.limit.expires := by
  simp only [step] at hwaits
  split at hwaits
  · cases hwaits
  · next hwake =>
      split at hwaits
      · cases hwaits
      · next hlimit => exact ⟨Nat.lt_of_not_le hwake, Nat.lt_of_not_le hlimit⟩

namespace Hub

variable {hub : Hub} {h : Handle} {s t : Session} {peer : Peer} {c : Connection}
  {deadline : Instant} {user : UserId} {envelope : Envelope} {arrival : Arrival}
  {rest : List Arrival}

/-- What happens next when the read pump of a connection has the hub to itself: a step of the pump
or, while a handler pauses, the time until the pause or its limit is over. -/
def alone (hub : Hub) (h : Handle) : Happening :=
  match hub.peers[h]?.map Peer.reader with
  | some (.handling _ job (.recording work (some wake))) =>
      if (job.step hub.service hub.now (.recording work (some wake))).isSome then .read h true
      else .pass (min wake job.limit.expires - hub.now)
  | _ => .read h true

/-- What happens when the read pump of a connection has the hub to itself for some rounds. -/
def solo (h : Handle) : Nat → Hub → List Happening
  | 0, _ => []
  | rounds + 1, hub => hub.alone h :: solo h rounds (hub.after (hub.alone h))

/-- The hub after these rounds. -/
def afterSolo (hub : Hub) (h : Handle) (rounds : Nat) : Hub :=
  hub.run (hub.solo h rounds)

theorem solo_add (hub : Hub) (h : Handle) (rounds more : Nat) :
    hub.solo h (rounds + more) = hub.solo h rounds ++ (hub.afterSolo h rounds).solo h more := by
  induction rounds generalizing hub with
  | zero => rw [Nat.zero_add]; rfl
  | succ rounds ih =>
      rw [Nat.add_right_comm, solo, solo, ih]
      rfl

theorem afterSolo_add (hub : Hub) (h : Handle) (rounds more : Nat) :
    hub.afterSolo h (rounds + more) = (hub.afterSolo h rounds).afterSolo h more := by
  rw [afterSolo, solo_add, run_append]
  rfl

@[simp]
theorem afterSolo_zero (hub : Hub) (h : Handle) : hub.afterSolo h 0 = hub := rfl

theorem afterSolo_succ (hub : Hub) (h : Handle) (rounds : Nat) :
    hub.afterSolo h (rounds + 1) = (hub.after (hub.alone h)).afterSolo h rounds := rfl

theorem leavesAlone_append {happenings more : List Happening} :
    hub.leavesAlone h (happenings ++ more) = true ↔
      hub.leavesAlone h happenings = true ∧ (hub.run happenings).leavesAlone h more = true := by
  induction happenings generalizing hub with
  | nil =>
      rw [List.nil_append, run_nil]
      exact ⟨fun halone => ⟨isLeftAlone_of_leavesAlone halone, halone⟩, fun halone => halone.2⟩
  | cons happening happenings ih =>
      rw [List.cons_append, leavesAlone, leavesAlone, Bool.and_eq_true, Bool.and_eq_true, ih,
        and_assoc, run_cons]

theorem leavesAlone_solo_add (rounds more : Nat) :
    hub.leavesAlone h (hub.solo h (rounds + more)) = true ↔
      hub.leavesAlone h (hub.solo h rounds) = true ∧
        (hub.afterSolo h rounds).leavesAlone h ((hub.afterSolo h rounds).solo h more) = true := by
  rw [solo_add, leavesAlone_append]
  rfl

theorem isLeftAlone_of_left (hs : hub.session? h = some s) (hleft : s.peer.hasLeft = true) :
    hub.isLeftAlone h = true := by
  rw [isLeftAlone, hs, Option.all_some, Bool.or_eq_true]
  left
  unfold Peer.hasLeft at hleft
  cases hreader : s.peer.reader with
  | draining exit | done exit => rfl
  | joining | waiting _ | handling _ _ _ | leaving _ | crashed =>
      rw [hreader] at hleft
      cases hleft

/-- Nobody can tell a read pump to leave that has left. -/
theorem leavesAlone_of_left (hs : hub.session? h = some s) (hleft : s.peer.hasLeft = true)
    (happenings : List Happening) : hub.leavesAlone h happenings = true := by
  induction happenings generalizing hub s with
  | nil => exact isLeftAlone_of_left hs hleft
  | cons happening happenings ih =>
      obtain ⟨t, ht, hleft'⟩ := hasLeft_run hs hleft [happening]
      rw [leavesAlone, isLeftAlone_of_left hs hleft, Bool.true_and]
      exact ih ht hleft'

/-- Nor need anybody look any further than to that. -/
theorem leavesAlone_solo_of_left {rounds : Nat}
    (halone : hub.leavesAlone h (hub.solo h rounds) = true)
    (hs : (hub.afterSolo h rounds).session? h = some s) (hleft : s.peer.hasLeft = true)
    (others : Nat) : hub.leavesAlone h (hub.solo h others) = true := by
  rcases Nat.le_total rounds others with hmore | hless
  · obtain ⟨more, rfl⟩ := Nat.exists_eq_add_of_le hmore
    exact (leavesAlone_solo_add rounds more).mpr ⟨halone, leavesAlone_of_left hs hleft _⟩
  · obtain ⟨more, rfl⟩ := Nat.exists_eq_add_of_le hless
    exact ((leavesAlone_solo_add others more).mp halone).1

/-- A read pump that leaves crashes neither before nor after. -/
theorem ne_crashed_of_left {rounds others : Nat}
    (hs : (hub.afterSolo h rounds).session? h = some s) (hleft : s.peer.hasLeft = true)
    (ht : (hub.afterSolo h others).session? h = some t) : t.peer.reader ≠ .crashed := by
  intro hcrashed
  rcases Nat.le_total rounds others with hmore | hless
  · obtain ⟨more, rfl⟩ := Nat.exists_eq_add_of_le hmore
    obtain ⟨t', ht', hleft'⟩ := hasLeft_run hs hleft ((hub.afterSolo h rounds).solo h more)
    rw [afterSolo_add] at ht
    obtain rfl := Option.some.inj (ht'.symm.trans ht)
    simp [Peer.hasLeft, hcrashed] at hleft'
  · obtain ⟨more, rfl⟩ := Nat.exists_eq_add_of_le hless
    obtain ⟨-, s', hs', hcrashed'⟩ :=
      crashed_run ht hcrashed ((hub.afterSolo h others).solo h more)
    rw [afterSolo_add] at hs
    obtain rfl := Option.some.inj (hs'.symm.trans hs)
    simp [Peer.hasLeft, hcrashed'] at hleft

/-- The connection of a peer stays with its owner. -/
theorem connection?_run (hget : hub.connection? h = some c) (happenings : List Happening) :
    ∃ d, (hub.run happenings).connection? h = some d ∧ d.user = c.user := by
  obtain ⟨d, hd, hidentity⟩ := (acted_run hub happenings).exists_get? hget
  exact ⟨d, hd, by rw [Connection.user, Connection.user, hidentity]⟩

@[simp]
theorem getElem?_setReader (hub : Hub) (h : Handle) (reader : ReadPump) :
    (hub.setReader h reader).peers[h]? =
      (hub.peers[h]?).map fun peer => { peer with reader } := by
  simp [setReader, modifyPeer]

/-- A step of a job is one of the read pump that runs it. -/
theorem handleNext_of_step {job : Job} {work next : Handling} {service : Service}
    {log : List Entry}
    (hstep : job.step hub.service hub.now work = some (next, service, log)) :
    hub.handleNext h deadline job work =
      some ((({ hub with service }).log log).setReader h (.handling deadline job next)) := by
  cases work with
  | finished outcome => cases hstep
  | recording _ _ | fanningOut _ _ => simp only [handleNext, hstep, Option.map_some]

theorem after_read_handling {job : Job} {work : Handling} {next : Hub}
    (hpeer : hub.peers[h]? = some peer) (hreader : peer.reader = .handling deadline job work)
    (hget : hub.connection? h = some c)
    (hnext : hub.handleNext h deadline job work = some next) :
    hub.after (.read h true) = next := by
  simp only [after, readStep, hpeer, hget, hreader, hnext, Option.getD_some]

theorem alone_of_step {job : Job} {work : Handling} (hpeer : hub.peers[h]? = some peer)
    (hreader : peer.reader = .handling deadline job work)
    (hgoes : (job.step hub.service hub.now work).isSome = true) :
    hub.alone h = .read h true := by
  unfold alone
  rw [hpeer, Option.map_some, hreader]
  split
  · next heq =>
      cases heq
      rw [if_pos hgoes]
  · rfl

theorem alone_of_wait {job : Job} {work : Recording} {wake : Instant}
    (hpeer : hub.peers[h]? = some peer)
    (hreader : peer.reader = .handling deadline job (.recording work (some wake)))
    (hwaits : job.step hub.service hub.now (.recording work (some wake)) = none) :
    hub.alone h = .pass (min wake job.limit.expires - hub.now) := by
  simp [alone, hpeer, hreader, hwaits]

/-- What a job comes to with nothing in between, its read pump comes to alone. -/
theorem exists_rounds_of_steps {job : Job} {stage last : Job.Stage} {log : List Entry}
    (hsteps : job.Steps stage last log) (hservice : hub.service = stage.service)
    (hnow : hub.now = stage.now) (hpeer : hub.peers[h]? = some peer)
    (hreader : peer.reader = .handling deadline job stage.work)
    (hget : hub.connection? h = some c) :
    ∃ rounds, (hub.afterSolo h rounds).service = last.service ∧
      (hub.afterSolo h rounds).settings = hub.settings ∧
      (hub.afterSolo h rounds).peers[h]? =
        some { peer with reader := .handling deadline job last.work } := by
  induction hsteps generalizing hub peer c with
  | refl stage =>
      refine ⟨0, hservice, rfl, hpeer.trans ?_⟩
      rw [← hreader]
  | @step service after now work next last log more hstep hrest ih =>
      obtain rfl := hservice
      obtain rfl := hnow
      have hnext := after_read_handling hpeer hreader hget (handleNext_of_step hstep)
      have halone := alone_of_step hpeer hreader (by rw [hstep]; rfl)
      obtain ⟨d, hd, -⟩ := connection?_run hget [.read h true]
      have hpeer' : (hub.after (.read h true)).peers[h]? =
          some { peer with reader := .handling deadline job next } := by
        rw [hnext, getElem?_setReader]
        simp [Hub.log, hpeer]
      have hservice' : (hub.after (.read h true)).service = after := by rw [hnext]; rfl
      have hnow' : (hub.after (.read h true)).now = hub.now := by rw [hnext]; rfl
      have hsettings' : (hub.after (.read h true)).settings = hub.settings := by rw [hnext]; rfl
      obtain ⟨rounds, hlast⟩ := ih hservice' hnow' hpeer' rfl hd
      refine ⟨rounds + 1, ?_⟩
      rw [afterSolo_succ, halone, ← hsettings']
      exact hlast
  | @wait service now wake work last log hwaits hrest ih =>
      obtain rfl := hservice
      obtain rfl := hnow
      have halone := alone_of_wait hpeer hreader hwaits
      obtain ⟨hwake, hlimit⟩ := Job.lt_of_step_none hwaits
      have hlater : (hub.after (.pass (min wake job.limit.expires - hub.now))).now =
          min wake job.limit.expires := by
        have hmin : hub.now ≤ min wake job.limit.expires :=
          Nat.le_min.mpr ⟨Nat.le_of_lt hwake, Nat.le_of_lt hlimit⟩
        exact Nat.add_sub_cancel' hmin
      have hservice : (hub.after (.pass (min wake job.limit.expires - hub.now))).service =
          hub.service := rfl
      obtain ⟨rounds, hrest⟩ := ih hservice hlater hpeer hreader hget
      refine ⟨rounds + 1, ?_⟩
      rw [afterSolo_succ, halone]
      exact hrest

@[simp]
theorem service_conclude (hub : Hub) (g : Handle) (user : UserId) (eventType : String)
    (outcome : Except Failure Unit) :
    (hub.conclude g user eventType outcome).service = hub.service := by
  cases outcome <;> rfl

@[simp]
theorem peers_conclude (hub : Hub) (g : Handle) (user : UserId) (eventType : String)
    (outcome : Except Failure Unit) :
    (hub.conclude g user eventType outcome).peers = hub.peers := by
  cases outcome <;> rfl

/-- Routing is over at once and has done to the service what the router does, or it begins the job
that the router carries out. -/
theorem route_cases (hub : Hub) (h : Handle) (user : UserId) (deadline : Instant)
    (envelope : Envelope) :
    ((hub.route h user deadline envelope).service =
        (hub.service.route hub.now h user envelope).2.1 ∧
      (hub.route h user deadline envelope).settings = hub.settings ∧
      (hub.route h user deadline envelope).peers = (hub.setReader h (.waiting deadline)).peers) ∨
    ∃ job, hub.route h user deadline envelope =
        hub.setReader h (.handling deadline job (.recording .lookingUp none)) ∧
      (hub.service.route hub.now h user envelope).2.1 = (hub.service.handle job hub.now).2.1 := by
  simp only [route, Service.route, Router.route]
  cases hub.service.router.find? envelope.eventType with
  | none => exact .inl ⟨rfl, rfl, rfl⟩
  | some handler =>
      cases handler with
      | probe tag fails =>
          refine .inl ⟨service_conclude _ _ _ _ _, settings_conclude _ _ _ _ _,
            peers_conclude _ _ _ _ _⟩
      | dispatcher =>
          simp only [Service.invoke, Service.dispatch]
          cases Job.ofEnvelope hub.service hub.now h user envelope with
          | error failure => exact .inl ⟨rfl, rfl, rfl⟩
          | ok job => exact .inr ⟨job, rfl, rfl⟩

/-- What the router does with an envelope, the read pump comes to alone. -/
theorem exists_rounds_of_route (hpeer : hub.peers[h]? = some peer)
    (hget : hub.connection? h = some c) (user : UserId) (deadline : Instant)
    (envelope : Envelope) :
    let start := hub.route h user deadline envelope
    ∃ rounds, (start.afterSolo h rounds).service =
        (hub.service.route hub.now h user envelope).2.1 ∧
      (start.afterSolo h rounds).settings = hub.settings ∧
      (start.afterSolo h rounds).peers[h]? = some { peer with reader := .waiting deadline } := by
  intro start
  rcases hub.route_cases h user deadline envelope with
    ⟨hservice, hsettings, hpeers⟩ | ⟨job, hstart, hservice⟩
  · refine ⟨0, hservice, hsettings, ?_⟩
    have hsame : start.peers[h]? = (hub.setReader h (.waiting deadline)).peers[h]? := by
      rw [hpeers]
    rw [getElem?_setReader, hpeer] at hsame
    exact hsame
  · obtain ⟨later, hsteps⟩ := job.steps_handle hub.service hub.now
    have hpeer' : start.peers[h]? = some { peer with
        reader := .handling deadline job (.recording .lookingUp none) } := by
      rw [show start = _ from hstart, getElem?_setReader, hpeer]
      rfl
    have hservice' : start.service = hub.service := by rw [show start = _ from hstart]; rfl
    have hsettings' : start.settings = hub.settings := by rw [show start = _ from hstart]; rfl
    have hnow' : start.now = hub.now := by rw [show start = _ from hstart]; rfl
    have hget' : start.connection? h = some c := by rw [connection?, hservice']; exact hget
    obtain ⟨rounds, hdone, hsettings, hpeer''⟩ :=
      exists_rounds_of_steps hsteps hservice' hnow' hpeer' rfl hget'
    obtain ⟨d, hd, -⟩ := connection?_run hget' (start.solo h rounds)
    -- One more round concludes the event.
    have hlast := after_read_handling hpeer'' rfl hd rfl
    have halone : (start.afterSolo h rounds).alone h = .read h true := by
      simp only [alone, hpeer'', Option.map_some]
    refine ⟨rounds + 1, ?_⟩
    rw [afterSolo_add, afterSolo_succ, halone, hlast, afterSolo_zero]
    refine ⟨?_, ?_, ?_⟩
    · rw [service_conclude, hservice]
      exact hdone
    · rw [settings_conclude, ← hsettings', ← hsettings]
      rfl
    · rw [peers_conclude, getElem?_setReader, hpeer'']
      rfl

/-- A read pump alone that waits takes what arrived first. -/
theorem afterSolo_of_waiting (hs : hub.session? h = some s)
    (hreader : s.peer.reader = .waiting deadline) (hinbox : s.peer.inbox = arrival :: rest)
    (hfree : s.connection.cancelled = false) (rounds : Nat) :
    hub.afterSolo h (rounds + 1) =
      ((hub.fetched h arrival rest).take h s.connection.user deadline arrival).afterSolo h
        rounds := by
  obtain ⟨hpeer, -, -⟩ := session?_eq_some_iff.mp hs
  have halone : hub.alone h = .read h true := by
    simp only [alone, hpeer, Option.map_some, hreader]
  rw [afterSolo_succ, halone, after_read_waiting hs hreader hinbox (by simp [hfree])]

/-- A read pump alone that leaves takes its connection off. -/
theorem afterSolo_of_leaving (hs : hub.session? h = some s) {exit : Exit}
    (hreader : s.peer.reader = .leaving exit) (rounds : Nat) :
    hub.afterSolo h (rounds + 1) =
      ((hub.teardown h exit).setReader h (.draining exit)).afterSolo h rounds := by
  obtain ⟨hpeer, hget, -⟩ := session?_eq_some_iff.mp hs
  have halone : hub.alone h = .read h true := by
    simp only [alone, hpeer, Option.map_some, hreader]
  have hafter : hub.after (.read h true) =
      (hub.teardown h exit).setReader h (.draining exit) := by
    simp only [after, readStep, hpeer, hget, hreader, Option.getD_some]
  rw [afterSolo_succ, halone, hafter]

/-- What is not routed only leads a read pump on. -/
theorem afterSolo_one_of_unrouted (hs : hub.session? h = some s)
    (hreader : s.peer.reader = .waiting deadline) (hinbox : s.peer.inbox = arrival :: rest)
    (hfree : s.connection.cancelled = false)
    (hrouted : arrival.routed? hub.settings.maxFrameBytes = none) :
    (hub.afterSolo h 1).session? h = some ((s.fetched arrival rest).setReader
        (arrival.unroutedTo hub.settings hub.now deadline)) ∧
      (hub.afterSolo h 1).settings = hub.settings ∧
      (hub.afterSolo h 1).service = hub.service := by
  obtain ⟨entries, htake⟩ :=
    (hub.fetched h arrival rest).take_of_unrouted hrouted h s.connection.user deadline
  rw [afterSolo_of_waiting hs hreader hinbox hfree, htake, afterSolo_zero]
  refine ⟨?_, rfl, rfl⟩
  rw [session?_setReader, if_pos rfl, session?_log, session?_fetched hs]
  rfl

/-- A read pump alone deals with an arrival that does not stop it and waits for the next, or
crashes at it. -/
theorem exists_rounds_of_arrival (hs : hub.session? h = some s)
    (hreader : s.peer.reader = .waiting deadline) (hinbox : s.peer.inbox = arrival :: rest)
    (hfree : s.connection.cancelled = false)
    (hgoes : arrival.exit? hub.settings.maxFrameBytes = none) :
    ∃ rounds t, (hub.afterSolo h rounds).session? h = some t ∧
      (t.peer.reader = .crashed ∨
        ∃ later, t.peer.reader = .waiting later ∧ t.peer.inbox = rest ∧
          t.connection.user = s.connection.user ∧
          (hub.afterSolo h rounds).settings = hub.settings ∧
          hub.service.Routed h s.connection.user arrival.envelope?.toList
            (hub.afterSolo h rounds).service) := by
  have hrouted := Arrival.routed?_of_exit?_none hgoes
  cases henvelope : arrival.envelope? with
  | none =>
      obtain ⟨hnext, hsettings, hservice⟩ :=
        afterSolo_one_of_unrouted hs hreader hinbox hfree (hrouted.trans henvelope)
      refine ⟨1, _, hnext, ?_⟩
      have hawaits := Arrival.awaits_unroutedTo hgoes hub.now deadline
      generalize arrival.unroutedTo hub.settings hub.now deadline = next at hawaits
      cases hawaits with
      | crashed => exact .inl rfl
      | waiting later =>
          refine .inr ⟨later, rfl, rfl, rfl, hsettings, ?_⟩
          rw [hservice]
          exact .nil hub.service
  | some envelope =>
      have htake := (hub.fetched h arrival rest).take_of_routed? (hrouted.trans henvelope) h
        s.connection.user deadline
      obtain ⟨hpeer, hget, -⟩ := session?_eq_some_iff.mp (session?_fetched hs arrival rest)
      obtain ⟨rounds, hservice, hsettings, hlast⟩ :=
        exists_rounds_of_route hpeer hget s.connection.user deadline envelope
      rw [← htake, ← afterSolo_of_waiting hs hreader hinbox hfree] at hservice hsettings hlast
      obtain ⟨-, hget', -⟩ := session?_eq_some_iff.mp hs
      obtain ⟨d, hd, huser⟩ := connection?_run hget' (hub.solo h (rounds + 1))
      refine ⟨rounds + 1, ⟨_, d, _⟩, session?_eq_some_iff.mpr ⟨hlast, hd, rfl⟩,
        .inr ⟨deadline, rfl, rfl, huser, hsettings, ?_⟩⟩
      rw [hservice]
      exact .cons hub.now (.nil _)

/-- A read pump alone stops at an arrival and takes its connection off. -/
theorem afterSolo_two_of_exit? (hs : hub.session? h = some s)
    (hreader : s.peer.reader = .waiting deadline) (hinbox : s.peer.inbox = arrival :: rest)
    (hfree : s.connection.cancelled = false) {exit : Exit}
    (hstops : arrival.exit? hub.settings.maxFrameBytes = some exit) :
    ∃ t, (hub.afterSolo h 2).session? h = some t ∧ t.peer.reader = .draining exit ∧
      (hub.afterSolo h 2).service = { hub.service with
        board := (hub.service.board.remove h).2.beginClose h } := by
  obtain ⟨hnext, -, hservice⟩ :=
    afterSolo_one_of_unrouted hs hreader hinbox hfree (Arrival.routed?_of_exit? hstops)
  have hled : arrival.unroutedTo hub.settings hub.now deadline = .leaving exit := by
    rw [Arrival.unroutedTo, hstops]
  rw [hled] at hnext
  have hlast : hub.afterSolo h 2 =
      ((hub.afterSolo h 1).teardown h exit).setReader h (.draining exit) :=
    (hub.afterSolo_add h 1 1).trans (afterSolo_of_leaving hnext rfl 0)
  refine ⟨(((s.fetched arrival rest).setReader (.leaving exit)).torn).setReader (.draining exit),
    ?_, rfl, ?_⟩
  · rw [hlast, session?_setReader, if_pos rfl, session?_teardown, if_pos rfl, hnext]
    rfl
  · rw [hlast, ← hservice]
    rfl

/-- A read pump alone gets through its inbox, or to the arrival that stops it and off the registry,
or it crashes. -/
theorem exists_rounds_of_inbox (hs : hub.session? h = some s)
    (hreader : s.peer.reader = .waiting deadline)
    (halone : ∀ rounds, hub.leavesAlone h (hub.solo h rounds) = true) :
    ∃ rounds t, (hub.afterSolo h rounds).session? h = some t ∧
      (t.peer.reader = .crashed ∨ ∃ between,
        hub.service.Routed h s.connection.user
          ((heard hub.settings.maxFrameBytes s.peer.inbox).filterMap Arrival.envelope?) between ∧
        match s.peer.inbox.findSome? (Arrival.exit? hub.settings.maxFrameBytes) with
        | some exit =>
            t.peer.reader = .draining exit ∧ (hub.afterSolo h rounds).service =
              { between with board := (between.board.remove h).2.beginClose h }
        | none =>
            t.peer.reader.deadline?.isSome = true ∧ t.peer.inbox = [] ∧
              (hub.afterSolo h rounds).service = between) := by
  generalize hinbox : s.peer.inbox = inbox
  induction inbox generalizing hub s deadline with
  | nil =>
      refine ⟨0, s, hs, .inr ⟨hub.service, .nil _, ?_, hinbox, rfl⟩⟩
      rw [hreader]
      rfl
  | cons arrival rest ih =>
      have hfree := free_of_isLeftAlone (isLeftAlone_of_leavesAlone (halone 0)) hs
        (by rw [hreader]; rfl)
      cases hexit : arrival.exit? hub.settings.maxFrameBytes with
      | none =>
          obtain ⟨rounds, t, ht, hcrashed | hwaits⟩ :=
            exists_rounds_of_arrival hs hreader hinbox hfree hexit
          · exact ⟨rounds, t, ht, .inl hcrashed⟩
          · obtain ⟨later, hreader', hinbox', huser, hsettings, hrouted⟩ := hwaits
            obtain ⟨more, last, hlast, hrest⟩ :=
              ih ht hreader' (fun more => ((leavesAlone_solo_add rounds more).mp (halone _)).2)
                hinbox'
            rw [← afterSolo_add] at hlast hrest
            rw [hsettings, huser] at hrest
            refine ⟨rounds + more, last, hlast, ?_⟩
            refine hrest.imp_right fun ⟨between, hrest, hend⟩ => ⟨between, ?_, ?_⟩
            · rw [filterMap_heard_cons hexit]
              exact hrouted.append hrest
            · rw [List.findSome?_cons, hexit]
              exact hend
      | some exit =>
          obtain ⟨t, ht, hreader', hservice⟩ := afterSolo_two_of_exit? hs hreader hinbox hfree hexit
          refine ⟨2, t, ht, .inr ⟨hub.service, ?_, ?_⟩⟩
          · rw [heard_cons_of_exit? hexit]
            exact .nil hub.service
          · rw [List.findSome?_cons, hexit]
            exact ⟨hreader', hservice⟩

/-- A read pump whose connection is not cancelled routes what is available as it should, as long as
its clock can tell its deadlines. In every run it takes what arrived in order and one by one, and
what it has routed is a beginning of the envelopes among the data frames before the first arrival
that stops it, whatever becomes of any of them; pings, pongs and data frames that cannot be decoded
neither stop it nor do anything to the service. When it stops it has routed all the envelopes that
were available before that arrival. If one that was available stops it, then it stops for this and
for nothing else, takes nothing later, and once it has left its connection is off the registry,
cancelled and closing or closed. With the hub to itself it comes to that, or waits with nothing
left, and its routings come to what the router does for one envelope after another. Where the clock
cannot tell when the wait for a pong is over, the pump crashes, at its registration or at a pong,
and never takes anything again. -/
theorem available_arrivals_routed (hub : Hub) (h : Handle) (s : Session)
    (hs : hub.session? h = some s) :
    let limit := hub.settings.maxFrameBytes
    let wait := hub.settings.pongWait.toNanos
    let available := s.peer.inbox
    let envelopes := (heard limit available).filterMap Arrival.envelope?
    (s.peer.reader = .joining → ∀ cancelFirst,
      ∃ t, (hub.after (.read h cancelFirst)).session? h = some t ∧ t.peer.inbox = available ∧
        t.peer.reader =
          if hub.now + wait < Instant.limit then .waiting (hub.now + wait) else .crashed) ∧
    (s.peer.reader = .crashed → ∀ happenings,
      hub.taken h happenings = [] ∧ hub.routed h happenings = []) ∧
    (∀ deadline, s.peer.reader = .waiting deadline →
      (∀ happenings, hub.leavesAlone h happenings = true →
        let last := hub.run happenings
        let taken := hub.taken h happenings
        let all := available ++ hub.arrived h happenings
        ∃ t, last.session? h = some t ∧ taken ++ t.peer.inbox = all ∧
          hub.routed h happenings <+: (heard limit all).filterMap Arrival.envelope? ∧
          taken.length ≤ (heard limit all).length + 1 ∧
          (t.peer.reader.exit?.isSome = true ∨ t.peer.inbox = [] →
            envelopes <+: hub.routed h happenings) ∧
          (∀ exit, available.findSome? (Arrival.exit? limit) = some exit →
            taken.length ≤ (heard limit available).length + 1 ∧
            hub.routed h happenings <+: envelopes ∧
            ∀ found, t.peer.reader.exit? = some found →
              found = exit ∧ hub.routed h happenings = envelopes) ∧
          (t.peer.hasLeft = true → h ∉ last.service.board.members ∧
            t.connection.cancelled = true ∧
            (t.connection.lifecycle = .closing ∨ t.connection.lifecycle = .closed)) ∧
          (t.peer.reader = .crashed → Instant.limit ≤ last.now + wait)) ∧
      ((∀ rounds, hub.leavesAlone h (hub.solo h rounds) = true) →
        ∃ rounds t, (hub.afterSolo h rounds).session? h = some t ∧
          (t.peer.reader = .crashed ∨ ∃ between,
            hub.service.Routed h s.connection.user envelopes between ∧
            match available.findSome? (Arrival.exit? limit) with
            | some exit =>
                t.peer.reader = .draining exit ∧ (hub.afterSolo h rounds).service =
                  { between with board := (between.board.remove h).2.beginClose h }
            | none =>
                t.peer.reader.deadline?.isSome = true ∧ t.peer.inbox = [] ∧
                  (hub.afterSolo h rounds).service = between))) ∧
    ∀ (here : Hub) (happening : Happening) (arrival : Arrival),
      here.takes? h happening = some arrival →
      match here.routes? h happening with
      | some envelope => ∃ own deadline inbox, here.session? h = some own ∧
          own.peer.reader = .waiting deadline ∧ own.peer.inbox = arrival :: inbox ∧
          here.after happening =
            (here.fetched h arrival inbox).route h own.connection.user deadline envelope
      | none => (here.after happening).service = here.service := by
  intro limit wait available envelopes
  refine ⟨?_, ?_, ?_, ?_⟩
  · intro hreader cancelFirst
    refine ⟨_, session?_after_join hs hreader cancelFirst, rfl, ?_⟩
    split
    · next hclock => exact ReadPump.awaiting_eq_waiting hclock
    · next hclock => exact ReadPump.awaiting_eq_crashed_iff.mpr (Nat.le_of_not_lt hclock)
  · intro hreader happenings
    obtain ⟨htaken, -⟩ := crashed_run hs hreader happenings
    refine ⟨htaken, ?_⟩
    rw [routed_eq hs, htaken]
    rfl
  · intro deadline hreader
    refine ⟨?_, exists_rounds_of_inbox hs hreader⟩
    intro happenings halone last taken all
    have hstart : s.HasTaken limit available [] := by
      refine ⟨List.prefix_rfl, fun _ => rfl, ?_⟩
      intro exit hexit
      rw [hreader] at hexit
      cases hexit
    obtain ⟨t, ht, htaken⟩ := hasTaken_run hs hstart halone
    rw [List.nil_append] at htaken
    obtain ⟨t', ht', hqueue⟩ := taken_append_inbox hs happenings
    obtain rfl := Option.some.inj (ht'.symm.trans ht)
    obtain ⟨hlength, hrouted⟩ := htaken.heard_eq
    have hrouted := (routed_eq hs happenings).trans hrouted
    have hprefix : heard limit taken <+: heard limit all := by
      rw [show all = taken ++ t'.peer.inbox from hqueue.symm]
      exact heard_prefix limit taken t'.peer.inbox
    refine ⟨t', ht, hqueue, ?_, ?_, ?_, ?_, ?_, ?_⟩
    · rw [hrouted]
      exact hprefix.filterMap _
    · exact Nat.le_trans hlength (Nat.succ_le_succ hprefix.length_le)
    · intro hdone
      rw [hrouted]
      exact (htaken.heard_available hqueue hdone).filterMap _
    · intro exit hstops
      have hheard : heard limit all = heard limit available := heard_append_of_stopped hstops
      rw [hheard] at hprefix
      refine ⟨Nat.le_trans hlength (Nat.succ_le_succ hprefix.length_le), ?_, ?_⟩
      · rw [hrouted]
        exact hprefix.filterMap _
      · intro found hfound
        have hall := htaken.heard_available hqueue (.inl (by rw [hfound]; rfl))
        have hsame : heard limit available = heard limit taken :=
          hall.eq_of_length_le hprefix.length_le
        exact ⟨htaken.exit_eq hqueue hstops hfound,
          hrouted.trans (congrArg (List.filterMap Arrival.envelope?) hsame.symm)⟩
    · intro hleft
      obtain ⟨removals, lines, haccount⟩ := Session.exists_accounted (by rw [hreader]; rfl)
      obtain ⟨hout, hcancelled, hsound⟩ :=
        left_run hs haccount (by simp [Peer.hasLeft, hreader]) happenings ht hleft
      obtain ⟨-, -, hregistered⟩ := session?_eq_some_iff.mp ht
      refine ⟨?_, hcancelled, hsound.cancelled_iff.mp hcancelled⟩
      rw [← Switchboard.contains_iff, hregistered, hout]
      exact Bool.false_ne_true
    · exact limit_le_of_crashed hs (by simp [hreader]) happenings ht
  · intro here happening arrival htakes
    cases hroutes : here.routes? h happening with
    | some envelope =>
        obtain ⟨found, own, deadline, inbox, htakes', hown, hreader, hinbox, hafter⟩ :=
          after_of_routes? hroutes
        obtain rfl := Option.some.inj (htakes'.symm.trans htakes)
        exact ⟨own, deadline, inbox, hown, hreader, hinbox, hafter⟩
    | none => exact service_after_of_takes? htakes hroutes

/-- A ping, a frame without an envelope, two envelopes whose handler fails, a pong between them and
a close before a third. -/
def mixedRun : List Happening :=
  [.accept ⟨⟨1⟩, .user⟩ .direct, .read 0 true, .arrive 0 (.ping 300), .arrive 0 (.text "no"),
    .arrive 0 (.text "\x7b\"type\":\"a\"\x7d"), .arrive 0 (.pong 0),
    .arrive 0 (.binary (Utf8.ofText "\x7b\"type\":\"b\"\x7d")), .arrive 0 .close,
    .arrive 0 (.text "\x7b\"type\":\"a\"\x7d")]

theorem mixed_arrivals_routed :
    let hub := ((Hub.new .standard ⟨10, 0, by decide, by decide⟩ .empty .none ⟨0, 0⟩).withRouter
      ⟨[("a", .probe "p" (some "down"))]⟩).run mixedRun
    ∃ s deadline, hub.session? 0 = some s ∧ s.peer.reader = .waiting deadline ∧
      (∀ rounds, hub.leavesAlone 0 (hub.solo 0 rounds) = true) ∧
      ∃ rounds t, (hub.afterSolo 0 rounds).session? 0 = some t ∧
        t.peer.reader = .draining .peerClosed ∧
        (hub.routed 0 (hub.solo 0 rounds)).map (·.eventType) = ["a", "b"] := by
  intro hub
  obtain ⟨s, deadline, hs, hreader, hexit, hroutes⟩ : ∃ s deadline,
      hub.session? 0 = some s ∧ s.peer.reader = .waiting deadline ∧
      s.peer.inbox.findSome? (Arrival.exit? hub.settings.maxFrameBytes) = some .peerClosed ∧
      ((heard hub.settings.maxFrameBytes s.peer.inbox).filterMap Arrival.envelope?).map
        (·.eventType) = ["a", "b"] :=
    ⟨_, _, rfl, rfl, by decide +kernel, by decide +kernel⟩
  have hfree : hub.leavesAlone 0 (hub.solo 0 8) = true := by decide +kernel
  have hleft : ((hub.afterSolo 0 8).session? 0).any (fun s => s.peer.hasLeft) = true := by
    decide +kernel
  obtain ⟨last, hlast, hleft⟩ := (Option.any_eq_true _ _).mp hleft
  have halone := leavesAlone_solo_of_left hfree hlast hleft
  obtain ⟨-, -, hwaits, -⟩ := available_arrivals_routed hub 0 s hs
  obtain ⟨hruns, hdone⟩ := hwaits deadline hreader
  obtain ⟨rounds, t, ht, hcrashed | ⟨between, -, hend⟩⟩ := hdone halone
  · exact absurd hcrashed (ne_crashed_of_left hlast hleft ht)
  · obtain ⟨t', ht', -, -, -, -, hstopped, -⟩ := hruns (hub.solo 0 rounds) (halone rounds)
    obtain rfl := Option.some.inj (ht'.symm.trans ht)
    have hend : t'.peer.reader = .draining .peerClosed := by
      rw [hexit] at hend
      exact hend.1
    obtain ⟨-, hrouted⟩ := (hstopped _ hexit).2.2 _ (congrArg ReadPump.exit? hend)
    refine ⟨s, deadline, hs, hreader, halone, rounds, t', ht, hend, ?_⟩
    rw [hrouted]
    exact hroutes

/-- A wait that the configuration accepts and no clock can tell the end of: nothing is routed of
what a registered connection has sent. -/
theorem untellable_deadline_routes_nothing :
    let settings := { Settings.standard with
      pongWait := ⟨9_223_372_036_854_775_808, 0, by decide, by decide⟩ }
    let first := (Hub.new settings ⟨10, 0, by decide, by decide⟩ .empty .none ⟨0, 0⟩).run
      [.accept ⟨⟨1⟩, .user⟩ .direct, .arrive 0 (.text "\x7b\"type\":\"a\"\x7d")]
    let hub := first.after (.read 0 true)
    (∃ config, Configuration.read (Configuration.waiting "9223372036854775808") = .ok config ∧
      config.settings = settings) ∧
    0 ∈ hub.service.board.members ∧
    ∃ s, hub.session? 0 = some s ∧ s.connection.cancelled = false ∧
      ((heard hub.settings.maxFrameBytes s.peer.inbox).filterMap Arrival.envelope?).map
        (·.eventType) = ["a"] ∧
      ∀ happenings, hub.routed 0 happenings = [] := by
  intro settings first hub
  refine ⟨Configuration.exists_of_toOption (by decide +kernel), by decide +kernel, ?_⟩
  obtain ⟨s, hs, hreader, hfree, henvelopes⟩ : ∃ s, first.session? 0 = some s ∧
      s.peer.reader = .joining ∧ s.joined.connection.cancelled = false ∧
      ((heard hub.settings.maxFrameBytes s.peer.inbox).filterMap Arrival.envelope?).map
        (·.eventType) = ["a"] :=
    ⟨_, rfl, rfl, rfl, by decide +kernel⟩
  have hjoined := session?_after_join hs hreader true
  have hcrashed : ReadPump.awaiting first.settings first.now = .crashed :=
    ReadPump.awaiting_eq_crashed_iff.mpr (by decide +kernel)
  rw [hcrashed] at hjoined
  refine ⟨_, hjoined, hfree, henvelopes, fun happenings => ?_⟩
  rw [routed_eq hjoined, (crashed_run hjoined rfl happenings).1]
  rfl

end Hub

end ListingHub
