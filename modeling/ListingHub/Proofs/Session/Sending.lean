import ListingHub.Proofs.Session.Outbox

/-!
# What reaches a peer

Whatever happens around a write pump, and in whatever order: its connection is offered envelopes and
closed, its sink blocks, fails and works again, time passes. What it writes are the first of the
envelopes that the queue accepted, in order, and at the end a close, unless a write failed, after
which it writes nothing more. A pump that was told to leave takes up no other envelope, and the
queue of a pump that has stopped accepts none.
-/

namespace ListingHub

/-- What can happen around a write pump: anything at the hub, and offers to a connection, its
closing and changes of a sink wherever they come from. -/
inductive Incident where
  | happen (happening : Happening)
  | deliver (h : Handle) (envelope : Envelope)
  | cancel (h : Handle)
  /-- The sink of a peer blocks or not, and fails or works again. -/
  | resink (h : Handle) (blocked : Bool) (broken : Option String)

namespace Session

variable {settings : Settings} {now : Instant} {s t u : Session}
  {attempts more : List Attempt} {new later : List Envelope}

/-- A session goes on by a step of its write pump or by what happens beside it: what the pump tries
and what the queue accepts. -/
inductive Proceeds (s : Session) : List Attempt → List Envelope → Session → Prop
  | writes {settings : Settings} {now : Instant} {removal : Option Remover}
      {lines : List LogEvent} {t : Session} (hwrites : s.Writes settings now removal lines t) :
      Proceeds s s.attempt?.toList [] t
  | beside {t : Session} {new : List Envelope} (hbeside : s.Beside t new) : Proceeds s [] new t

/-- A session goes on any number of times. -/
inductive Goes : Session → List Attempt → List Envelope → Session → Prop
  | refl (s : Session) : Goes s [] [] s
  | step {s t u : Session} {attempts more : List Attempt} {new later : List Envelope}
      (hfirst : s.Proceeds attempts new t) (hrest : Goes t more later u) :
      Goes s (attempts ++ more) (new ++ later) u

theorem Proceeds.outbox {initial : List Frame} {accepted : List Envelope}
    {tried : List Attempt} (hproceeds : s.Proceeds attempts new t)
    (houtbox : s.Outbox initial accepted tried) :
    t.Outbox initial (accepted ++ new) (tried ++ attempts) := by
  cases hproceeds with
  | writes hwrites =>
      rw [List.append_nil]
      exact houtbox.writes hwrites
  | beside hbeside =>
      rw [List.append_nil]
      exact houtbox.beside hbeside

theorem Goes.outbox {initial : List Frame} {accepted : List Envelope} {tried : List Attempt}
    (hgoes : s.Goes attempts new t) (houtbox : s.Outbox initial accepted tried) :
    t.Outbox initial (accepted ++ new) (tried ++ attempts) := by
  induction hgoes generalizing accepted tried with
  | refl s =>
      rw [List.append_nil, List.append_nil]
      exact houtbox
  | step hfirst hrest ih =>
      rw [← List.append_assoc, ← List.append_assoc]
      exact ih (hfirst.outbox houtbox)

/-- The write pump was told to leave or has stopped. -/
def IsClosing (s : Session) : Prop :=
  s.connection.cancelled = true ∨ s.peer.writer.isRunning = false

/-- A write pump that was told to leave writes what it is writing and no other text. -/
theorem Proceeds.closing (hproceeds : s.Proceeds attempts new t) (hclosing : s.IsClosing) :
    t.IsClosing ∧ textsOf attempts ++ t.peer.writer.inFlight = s.peer.writer.inFlight := by
  cases hproceeds with
  | writes hwrites =>
      obtain ⟨taken, left, hcarries⟩ := hwrites.carries
      obtain rfl := hcarries.closing hclosing
      refine ⟨hclosing.imp hwrites.cancelled hcarries.stopped, ?_⟩
      rw [hcarries.texts, List.map_nil, List.append_nil]
  | beside hbeside =>
      rw [IsClosing, hbeside.writer]
      exact ⟨hclosing.imp_left hbeside.connection.cancelled, rfl⟩

theorem Goes.closing (hgoes : s.Goes attempts new t) (hclosing : s.IsClosing) :
    textsOf attempts ++ t.peer.writer.inFlight = s.peer.writer.inFlight := by
  induction hgoes with
  | refl s => rfl
  | step hfirst hrest ih =>
      obtain ⟨hstill, htexts⟩ := hfirst.closing hclosing
      rw [textsOf_append, List.append_assoc, ih hstill, htexts]

/-- The write pump has stopped and its queue accepts nothing. -/
def IsShut (s : Session) : Prop :=
  s.peer.writer.isRunning = false ∧ s.connection.receiver ≠ .alive

theorem Proceeds.shut (hproceeds : s.Proceeds attempts new t) (hshut : s.IsShut) :
    t.IsShut ∧ new = [] := by
  obtain ⟨hstopped, hreceiver⟩ := hshut
  cases hproceeds with
  | writes hwrites =>
      obtain ⟨_, _, hcarries⟩ := hwrites.carries
      have hstill := hcarries.stopped hstopped
      have halive := hwrites.alive_iff (iff_of_false hreceiver (Bool.eq_false_iff.mp hstopped))
      exact ⟨⟨hstill, fun hlives => Bool.eq_false_iff.mp hstill (halive.mp hlives)⟩, rfl⟩
  | beside hbeside =>
      rw [IsShut, hbeside.writer, hbeside.connection.receiver]
      exact ⟨⟨hstopped, hreceiver⟩,
        not_ne_iff.mp fun hnew => hreceiver (hbeside.connection.alive hnew)⟩

theorem Goes.shut (hgoes : s.Goes attempts new t) (hshut : s.IsShut) : t.IsShut ∧ new = [] := by
  induction hgoes with
  | refl s => exact ⟨hshut, rfl⟩
  | step hfirst hrest ih =>
      obtain ⟨hstill, rfl⟩ := hfirst.shut hshut
      exact ih hstill

/-- A write pump takes from the front of its queue at most. -/
theorem Writes.queue_suffix {removal : Option Remover} {lines : List LogEvent}
    (hwrites : s.Writes settings now removal lines t) :
    t.connection.queue <:+ s.connection.queue := by
  cases hwrites with
  | fetch _ _ _ => exact s.connection.queue_receive_suffix
  | crash _ _ _ | teardown _ => exact List.nil_suffix
  | start _ _ _ | ping _ _ _ _ | send _ _ | farewell _ _ | giveUp _ _ | stop _ _
  | disconnect _ _ _ | fail _ _ => exact List.suffix_refl _

end Session

namespace Hub

variable {hub next : Hub} {h : Handle} {s t : Session}

/-- The hub after an incident. -/
def meet (hub : Hub) : Incident → Hub
  | .happen happening => hub.after happening
  | .deliver h envelope => hub.mapBoard fun board => (board.deliver envelope h).2
  | .cancel h => hub.mapBoard fun board => board.beginClose h
  | .resink h blocked broken => hub.modifySink h fun sink => { sink with blocked, broken }

/-- The hub after incidents. -/
def meetAll (hub : Hub) (incidents : List Incident) : Hub :=
  incidents.foldl meet hub

@[simp]
theorem meetAll_nil (hub : Hub) : hub.meetAll [] = hub := rfl

/-- What a write pump tries to write in an incident. -/
def attempt? (h : Handle) (hub : Hub) : Incident → Option Attempt
  | .happen (.write g) => if g = h then (hub.session? h).bind Session.attempt? else none
  | .happen _ | .deliver .. | .cancel _ | .resink .. => none

/-- What a write pump tries to write in incidents, in order. -/
def attempts (h : Handle) : Hub → List Incident → List Attempt
  | _, [] => []
  | hub, incident :: incidents =>
      (attempt? h hub incident).toList ++ attempts h (hub.meet incident) incidents

/-- What the queue of a connection accepts in incidents, in order. -/
def accepts (h : Handle) : Hub → List Incident → List Envelope
  | _, [] => []
  | hub, incident :: incidents =>
      hub.service.board.accepted (hub.meet incident).service.board h ++
        accepts h (hub.meet incident) incidents

theorem queue_of_session? (hs : hub.session? h = some s) :
    hub.service.board.queue h = s.connection.queue := by
  obtain ⟨-, hget, -⟩ := session?_eq_some_iff.mp hs
  rw [Switchboard.queue, show hub.service.board.get? h = some s.connection from hget]
  rfl

/-- What joins the queue of a session is what the switchboard has accepted for it. -/
theorem proceeds_of_beside {new : List Envelope} (hs : hub.session? h = some s)
    (ht : next.session? h = some t) (hbeside : s.Beside t new) :
    s.Proceeds [] (hub.service.board.accepted next.service.board h) t := by
  have haccepted : hub.service.board.accepted next.service.board h = new := by
    apply Switchboard.accepted_of_append
    rw [queue_of_session? hs, queue_of_session? ht, hbeside.connection.queue]
  rw [haccepted]
  exact .beside hbeside

/-- A write pump that waits writes nothing. -/
theorem attempt?_of_writeStep (hs : hub.session? h = some s) (hstep : writeStep h hub = none) :
    s.attempt? = none := by
  obtain ⟨hpeer, hget, -⟩ := session?_eq_some_iff.mp hs
  simp only [writeStep, hpeer, hget] at hstep
  cases hwriter : s.peer.writer with
  | starting | idle _ | leaving _ | done _ | crashed =>
      exact Session.attempt?_of_none (by rw [hwriter]; rfl)
  | sending frame due | closing exit =>
      rw [hwriter] at hstep
      simp only [Option.map_eq_none_iff] at hstep
      simp [Session.attempt?, hwriter, WritePump.frame?, hstep]

theorem proceeds_write (hs : hub.session? h = some s) :
    ∃ t, (hub.meet (.happen (.write h))).session? h = some t ∧
      s.Proceeds s.attempt?.toList (hub.service.board.accepted
        (hub.meet (.happen (.write h))).service.board h) t := by
  cases hstep : writeStep h hub with
  | none =>
      have hafter : hub.meet (.happen (.write h)) = hub := by rw [meet, after, hstep]; rfl
      rw [hafter, attempt?_of_writeStep hs hstep]
      exact ⟨s, hs, proceeds_of_beside hs hs s.beside_refl⟩
  | some next =>
      have hafter : hub.meet (.happen (.write h)) = next := by rw [meet, after, hstep]; rfl
      obtain ⟨removal, lines, t, hshows, hwrites⟩ := writes_writeStep hs hstep
      rw [hafter]
      refine ⟨t, hshows.session, ?_⟩
      rw [Switchboard.accepted_of_suffix]
      · exact .writes hwrites
      · rw [queue_of_session? hs, queue_of_session? hshows.session]
        exact hwrites.queue_suffix

/-- An offer changes the connection that it is made to. -/
theorem session?_deliver (hub : Hub) (envelope : Envelope) (g h : Handle) :
    (hub.mapBoard fun board => (board.deliver envelope g).2).session? h =
      if h = g then
        (hub.session? h).map fun s => s.mapConnection fun c => (c.deliver envelope).2
      else hub.session? h := by
  cases hget : hub.service.board.get? g with
  | none =>
      have hsame : (hub.mapBoard fun board => (board.deliver envelope g).2) = hub := by
        simp [mapBoard, Switchboard.deliver, hget]
      have hnone : hub.session? g = none := by
        rw [session?, show hub.connection? g = none from hget]
        simp
      rw [hsame]
      split
      · next hg => rw [hg, hnone]; rfl
      · rfl
  | some c =>
      have hmodified : (hub.mapBoard fun board => (board.deliver envelope g).2) =
          hub.mapBoard fun board => board.modify g fun c => (c.deliver envelope).2 := by
        simp [mapBoard, Switchboard.deliver, hget]
      rw [hmodified, session?_modify]

/-- What happens beside the write pump of a session lets it go on. -/
theorem exists_proceeds (hs : hub.session? h = some s) (ht : next.session? h = some t)
    {new : List Envelope} (hbeside : s.Beside t new) :
    ∃ t, next.session? h = some t ∧
      s.Proceeds [] (hub.service.board.accepted next.service.board h) t :=
  ⟨t, ht, proceeds_of_beside hs ht hbeside⟩

theorem attempt?_of_ne {happening : Happening} (hother : happening ≠ .write h) :
    attempt? h hub (.happen happening) = none := by
  cases happening with
  | write g => exact if_neg fun hg => hother (by rw [hg])
  | _ => rfl

/-- Whatever happens lets a session go on. -/
theorem proceeds_meet (hs : hub.session? h = some s) (incident : Incident) :
    ∃ t, (hub.meet incident).session? h = some t ∧
      s.Proceeds (attempt? h hub incident).toList
        (hub.service.board.accepted (hub.meet incident).service.board h) t := by
  cases incident with
  | happen happening =>
      by_cases hwrite : happening = .write h
      · subst hwrite
        have hattempt : attempt? h hub (.happen (.write h)) = s.attempt? := by
          rw [attempt?, if_pos rfl, hs]
          rfl
        rw [hattempt]
        exact proceeds_write hs
      · obtain ⟨removal, lines, t, hshows, hstep⟩ := shows_after hs happening
        obtain ⟨new, hbeside⟩ := hstep.beside hwrite
        rw [attempt?_of_ne hwrite]
        exact exists_proceeds hs hshows.session hbeside
  | deliver g envelope =>
      have ht := hub.session?_deliver envelope g h
      rw [hs] at ht
      split at ht
      · exact exists_proceeds hs ht ⟨rfl, rfl, s.connection.joins_apply (.deliver envelope) rfl⟩
      · exact exists_proceeds hs ht s.beside_refl
  | cancel g =>
      have ht := hub.session?_modify g h fun c => c.beginClose.2
      rw [hs] at ht
      split at ht
      · exact exists_proceeds hs ht ⟨rfl, rfl, s.connection.joins_apply .beginClose rfl⟩
      · exact exists_proceeds hs ht s.beside_refl
  | resink g blocked broken =>
      have ht := hub.session?_modifyPeer g h fun peer =>
        { peer with sink := { peer.sink with blocked, broken } }
      rw [hs] at ht
      split at ht
      · exact exists_proceeds hs ht ⟨rfl, rfl, s.connection.joins_refl⟩
      · exact exists_proceeds hs ht s.beside_refl

/-- Whatever happens, a session goes on. -/
theorem goes_meetAll (hs : hub.session? h = some s) (incidents : List Incident) :
    ∃ t, (hub.meetAll incidents).session? h = some t ∧
      s.Goes (attempts h hub incidents) (accepts h hub incidents) t := by
  induction incidents generalizing hub s with
  | nil => exact ⟨s, hs, .refl s⟩
  | cons incident incidents ih =>
      obtain ⟨t, ht, hfirst⟩ := proceeds_meet hs incident
      obtain ⟨u, hu, hrest⟩ := ih ht
      exact ⟨u, hu, .step hfirst hrest⟩

/-- A queue whose receiving half is gone or shut refuses every offer. -/
theorem deliver_of_shut (hs : hub.session? h = some s) (hshut : s.IsShut) (envelope : Envelope) :
    (hub.service.board.deliver envelope h).1 = .closed := by
  obtain ⟨-, hget, -⟩ := session?_eq_some_iff.mp hs
  rw [Switchboard.deliver, show hub.service.board.get? h = some s.connection from hget,
    Connection.deliver_fst]
  exact Connection.offer_of_not fun hopen => hshut.2 hopen.2

/-- A write pump that has yet to start, whatever happens from there on: the sink gets the frames it
writes, and among them the texts are the first of the envelopes that its queue has accepted, in
order; while it runs, what it tried, what it is writing and what waits are all of them. It has tried
to write a close once if it has stopped for another reason than a failed write, and else not; after
a close and after a failed write it tries nothing. Once it was told to leave or has stopped it tries
no text but the one it is writing, and once it has stopped its queue accepts nothing. -/
theorem writes_what_was_accepted (hs : hub.session? h = some s)
    (hwriter : s.peer.writer = .starting) (halive : s.connection.receiver = .alive)
    (past future : List Incident) :
    let now := hub.meetAll past
    let tried := attempts h hub past
    let accepted := (s.connection.queue ++ accepts h hub past).map Envelope.encode
    ∃ t, now.session? h = some t ∧
      t.peer.sink.pumped = s.peer.sink.pumped ++ writtenBy tried ∧
      (writtenBy tried).filterMap Frame.text? <+: accepted ∧
      (t.peer.writer.isRunning = true →
        textsOf tried ++ t.peer.writer.inFlight ++ t.connection.queue.map Envelope.encode =
          accepted) ∧
      tried.countP (fun attempt => attempt.frame == .close) = t.peer.writer.farewells ∧
      (∀ before attempt after, tried = before ++ attempt :: after →
        attempt.frame = .close ∨ attempt.failure.isSome = true → after = []) ∧
      (t.connection.cancelled = true →
        textsOf (attempts h now future) <+: t.peer.writer.inFlight) ∧
      (t.peer.writer.isRunning = false →
        textsOf (attempts h now future) = [] ∧ accepts h now future = [] ∧
        ∀ envelope, ((now.meetAll future).service.board.deliver envelope h).1 = .closed) := by
  intro now tried accepted
  obtain ⟨t, ht, hgoes⟩ := goes_meetAll hs past
  have houtbox := hgoes.outbox (Session.outbox_of_starting hwriter halive)
  obtain ⟨u, hu, hlater⟩ := goes_meetAll ht future
  refine ⟨t, ht, houtbox.pumped, houtbox.written_prefix, ?_, houtbox.tried.countP_close, ?_, ?_,
    ?_⟩
  · intro hrunning
    obtain ⟨waiting, haccepted, hwaiting⟩ := houtbox.texts
    rw [hwaiting hrunning] at haccepted
    exact haccepted
  · intro before attempt after hsplit hends
    apply houtbox.tried.last hsplit
    rcases hends with hclose | hfailed
    · simp [Attempt.isRoutine, hclose, Frame.isRoutine]
    · simp [Attempt.isRoutine, Option.isNone_eq_false_iff.mpr hfailed]
  · intro hcancelled
    exact ⟨_, hlater.closing (.inl hcancelled)⟩
  · intro hstopped
    have htexts := hlater.closing (.inr hstopped)
    rw [WritePump.inFlight_of_stopped hstopped] at htexts
    have hshut : t.IsShut :=
      ⟨hstopped, fun hlives => Bool.eq_false_iff.mp hstopped (houtbox.alive.mp hlives)⟩
    obtain ⟨hstill, hnothing⟩ := hlater.shut hshut
    exact ⟨(List.append_eq_nil_iff.mp htexts).1, hnothing, deliver_of_shut hu hstill⟩

/-- Two envelopes are queued, and the connection is closed while the first is being written. -/
def partingRun : List Incident :=
  [.happen (.write 0), .deliver 0 ⟨"a", .null⟩, .deliver 0 ⟨"b", .null⟩, .happen (.write 0),
    .cancel 0, .happen (.write 0), .happen (.write 0), .happen (.write 0)]

theorem parting_writes_the_first :
    let hub := (Hub.new .standard ⟨10, 0, by decide, by decide⟩ .empty .none ⟨0, 0⟩).run
      [.accept ⟨⟨7⟩, .agent⟩ .direct, .read 0 true]
    ∃ s, hub.session? 0 = some s ∧ s.peer.writer = .starting ∧
      s.connection.receiver = .alive ∧
      (s.connection.queue ++ accepts 0 hub partingRun).map Envelope.encode =
        [Envelope.encode ⟨"a", .null⟩, Envelope.encode ⟨"b", .null⟩] ∧
      ∃ t, (hub.meetAll partingRun).session? 0 = some t ∧ t.peer.writer.farewells = 1 ∧
        t.peer.sink.pumped = s.peer.sink.pumped ++ [.text (Envelope.encode ⟨"a", .null⟩), .close] ∧
        ((hub.meetAll partingRun).service.board.deliver ⟨"c", .null⟩ 0).1 = .closed := by
  intro hub
  have hstart : (hub.session? 0).map (fun s => (s.peer.writer, s.connection.receiver,
      s.connection.queue.length)) = some (.starting, .alive, 0) := by
    decide +kernel
  have htried : attempts 0 hub partingRun =
      [⟨.text (Envelope.encode ⟨"a", .null⟩), none⟩, ⟨.close, none⟩] := by
    decide +kernel
  have haccepted : (accepts 0 hub partingRun).map Envelope.encode =
      [Envelope.encode ⟨"a", .null⟩, Envelope.encode ⟨"b", .null⟩] := by
    decide +kernel
  have hend : ((hub.meetAll partingRun).session? 0).map (fun t => t.peer.writer.isRunning) =
      some false := by
    decide +kernel
  clear_value hub
  obtain ⟨s, hs, hsame⟩ := Option.map_eq_some_iff.mp hstart
  obtain ⟨hwriter, halive, hqueue⟩ : s.peer.writer = .starting ∧
      s.connection.receiver = .alive ∧ s.connection.queue = [] := by
    simpa using hsame
  obtain ⟨t, ht, hpumped, -, -, hcloses, -, -, hrefuses⟩ :=
    writes_what_was_accepted hs hwriter halive partingRun []
  obtain ⟨t', ht', hstopped⟩ := Option.map_eq_some_iff.mp hend
  obtain rfl := Option.some.inj (ht.symm.trans ht')
  rw [htried] at hpumped hcloses
  rw [meetAll_nil] at hrefuses
  refine ⟨s, hs, hwriter, halive, ?_, t, ht, hcloses.symm, hpumped, ?_⟩
  · rw [hqueue, List.nil_append, haccepted]
  · exact (hrefuses hstopped).2.2 ⟨"c", .null⟩

end Hub

end ListingHub
