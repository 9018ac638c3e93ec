import ListingHub.Proofs.Session.Reception

/-!
# What a read pump makes of what arrives

What a read pump should make of a sequence of arrivals can be said without the pump. It listens up
to the first arrival that stops it, which is why it leaves, and routes the envelopes among the data
frames before that. The invariant `HasTaken` says that what it has taken so far is a beginning of
that, and every step of a pump that nobody tells to leave keeps it.
-/

namespace ListingHub

namespace Arrival

variable {arrival : Arrival} {envelope : Envelope} {limit : Nat}

/-- Why a read pump stops at an arrival, if it does. -/
def exit? (limit : Nat) : Arrival → Option Exit
  | text data =>
      if limit < data.utf8ByteSize then some (.frameTooLarge data.utf8ByteSize) else none
  | binary data => if limit < data.length then some (.frameTooLarge data.length) else none
  | ping _ | pong _ => none
  | close | ended => some .peerClosed
  | failure reason => some (.transport reason)

/-- The envelope in a data frame, if it can be decoded. -/
def envelope? (arrival : Arrival) : Option Envelope :=
  arrival.data?.bind fun data => (Envelope.ofFrame data).toOption

/-- The envelope that a read pump routes when it takes an arrival. -/
def routed? (limit : Nat) (arrival : Arrival) : Option Envelope :=
  arrival.data?.bind fun data =>
    if limit < data.length then none else (Envelope.ofFrame data).toOption

/-- A data frame stops a read pump exactly if it is too large. -/
theorem exit?_of_data? {data : List UInt8} (hdata : arrival.data? = some data) :
    arrival.exit? limit =
      if limit < data.length then some (.frameTooLarge data.length) else none := by
  cases arrival with
  | text text =>
      obtain rfl := Option.some.inj hdata
      have hsize : (Utf8.ofText text).length = text.utf8ByteSize := by simp [Utf8.ofText]
      rw [hsize, exit?]
  | binary bytes =>
      obtain rfl := Option.some.inj hdata
      rfl
  | ping _ | pong _ | close | failure _ | ended => cases hdata

/-- Where an arrival leads agrees with why it stops a read pump. -/
theorem Leads.exit?_eq {settings : Settings} {now deadline : Instant} {next : ReadPump}
    (hleads : arrival.Leads settings now deadline next) :
    next.exit? = arrival.exit? settings.maxFrameBytes := by
  cases hleads with
  | pong _ => exact (ReadPump.awaits_awaiting settings now).exit?
  | ping _ | close | ended | failure _ => rfl
  | tooLarge hdata hlarge => rw [exit?_of_data? hdata, if_pos hlarge]; rfl
  | passed hdata hsmall | begun hdata hsmall _ =>
      rw [exit?_of_data? hdata, if_neg (Nat.not_lt.mpr hsmall)]
      rfl

/-- An arrival that does not stop a read pump is routed if it can be decoded. -/
theorem routed?_of_exit?_none (hgoes : arrival.exit? limit = none) :
    arrival.routed? limit = arrival.envelope? := by
  rw [routed?, envelope?]
  cases hdata : arrival.data? with
  | none => rfl
  | some data =>
      rw [exit?_of_data? hdata] at hgoes
      split at hgoes
      · cases hgoes
      · next hsmall => simp only [Option.bind_some, if_neg hsmall]

theorem routed?_of_exit? {exit : Exit} (hstops : arrival.exit? limit = some exit) :
    arrival.routed? limit = none := by
  rw [routed?]
  cases hdata : arrival.data? with
  | none => rfl
  | some data =>
      rw [exit?_of_data? hdata] at hstops
      split at hstops
      · next hlarge => simp only [Option.bind_some, if_pos hlarge]
      · cases hstops

/-- Where a read pump goes after an arrival that is not routed. -/
def unroutedTo (settings : Settings) (now deadline : Instant) (arrival : Arrival) : ReadPump :=
  match arrival.exit? settings.maxFrameBytes with
  | some exit => .leaving exit
  | none => if arrival.isPong then .awaiting settings now else .waiting deadline

theorem awaits_unroutedTo {settings : Settings}
    (hgoes : arrival.exit? settings.maxFrameBytes = none) (now deadline : Instant) :
    (arrival.unroutedTo settings now deadline).Awaits := by
  rw [unroutedTo, hgoes]
  cases arrival.isPong with
  | true => exact ReadPump.awaits_awaiting settings now
  | false => exact .waiting deadline

end Arrival

/-- What a read pump listens to of what arrives: all before the first arrival that stops it. -/
def heard (limit : Nat) (arrivals : List Arrival) : List Arrival :=
  arrivals.takeWhile fun arrival => (arrival.exit? limit).isNone

section Heard

variable {limit : Nat} {arrivals more : List Arrival} {exit : Exit}

/-- A read pump listens on as long as nothing stops it. -/
theorem heard_append_of_going (hgoes : arrivals.findSome? (Arrival.exit? limit) = none)
    (more : List Arrival) : heard limit (arrivals ++ more) = arrivals ++ heard limit more := by
  apply List.takeWhile_append_of_pos
  intro arrival hin
  rw [List.findSome?_eq_none_iff.mp hgoes arrival hin]
  rfl

theorem heard_eq_self (hgoes : arrivals.findSome? (Arrival.exit? limit) = none) :
    heard limit arrivals = arrivals := by
  calc heard limit arrivals
    _ = heard limit (arrivals ++ []) := by rw [List.append_nil]
    _ = arrivals ++ heard limit [] := heard_append_of_going hgoes []
    _ = arrivals := List.append_nil arrivals

theorem heard_cons_of_exit? {arrival : Arrival} (hstops : arrival.exit? limit = some exit) :
    heard limit (arrival :: arrivals) = [] := by
  simp [heard, hstops]

theorem filterMap_heard_cons {arrival : Arrival} (hgoes : arrival.exit? limit = none) :
    (heard limit (arrival :: arrivals)).filterMap Arrival.envelope? =
      arrival.envelope?.toList ++ (heard limit arrivals).filterMap Arrival.envelope? := by
  have hheard : heard limit (arrival :: arrivals) = arrival :: heard limit arrivals := by
    simp [heard, hgoes]
  rw [hheard, List.filterMap_cons]
  cases arrival.envelope? <;> rfl

/-- Nothing that comes after the first arrival that stops a read pump makes a difference. -/
theorem heard_append_of_stopped (hstops : arrivals.findSome? (Arrival.exit? limit) = some exit) :
    heard limit (arrivals ++ more) = heard limit arrivals := by
  induction arrivals with
  | nil => cases hstops
  | cons arrival arrivals ih =>
      cases hexit : arrival.exit? limit with
      | none =>
          rw [List.findSome?_cons, hexit] at hstops
          have hrest := ih hstops
          unfold heard at hrest ⊢
          simp [hexit, hrest]
      | some exit => simp [heard, hexit]

theorem heard_prefix (limit : Nat) (arrivals more : List Arrival) :
    heard limit arrivals <+: heard limit (arrivals ++ more) := by
  cases hexit : arrivals.findSome? (Arrival.exit? limit) with
  | some exit =>
      have hsame : heard limit (arrivals ++ more) = heard limit arrivals :=
        heard_append_of_stopped hexit
      exact ⟨[], by rw [List.append_nil, hsame]⟩
  | none =>
      rw [heard_eq_self hexit, heard_append_of_going hexit]
      exact List.prefix_append _ _

/-- What a read pump listens to it routes if it can be decoded. -/
theorem filterMap_routed?_of_going (hgoes : arrivals.findSome? (Arrival.exit? limit) = none) :
    arrivals.filterMap (Arrival.routed? limit) = arrivals.filterMap Arrival.envelope? := by
  induction arrivals with
  | nil => rfl
  | cons arrival arrivals ih =>
      rw [List.findSome?_cons] at hgoes
      split at hgoes
      · cases hgoes
      · next hexit =>
          rw [List.filterMap_cons, List.filterMap_cons, Arrival.routed?_of_exit?_none hexit,
            ih hgoes]

/-- Of these arrivals the last is the first that stops a read pump, and this is why. -/
def StoppedBy (limit : Nat) (arrivals : List Arrival) (exit : Exit) : Prop :=
  ∃ before last, arrivals = before ++ [last] ∧
    before.findSome? (Arrival.exit? limit) = none ∧ last.exit? limit = some exit

theorem StoppedBy.findSome?_eq (hstopped : StoppedBy limit arrivals exit) :
    arrivals.findSome? (Arrival.exit? limit) = some exit := by
  obtain ⟨before, last, rfl, hbefore, hlast⟩ := hstopped
  rw [List.findSome?_append, hbefore]
  simpa using hlast

/-- A read pump listens to all but the last of them, and routes nothing else. -/
theorem StoppedBy.heard_eq (hstopped : StoppedBy limit arrivals exit) :
    arrivals.length = (heard limit arrivals).length + 1 ∧
      arrivals.filterMap (Arrival.routed? limit) =
        (heard limit arrivals).filterMap Arrival.envelope? := by
  obtain ⟨before, last, rfl, hbefore, hlast⟩ := hstopped
  have hheard : heard limit (before ++ [last]) = before := by
    rw [heard_append_of_going hbefore, heard_cons_of_exit? hlast, List.append_nil]
  rw [hheard]
  refine ⟨List.length_append, ?_⟩
  rw [List.filterMap_append, filterMap_routed?_of_going hbefore, List.filterMap_cons,
    Arrival.routed?_of_exit? hlast]
  exact List.append_nil _

end Heard

/-- How a read pump stands that has taken arrivals: it goes on as long as none of them stops it and
leaves for the first that does. It can also leave because its time is up, but only after it has
taken all that was `available`. -/
structure Session.HasTaken (limit : Nat) (available taken : List Arrival) (s : Session) : Prop where
  queued : available <+: taken ++ s.peer.inbox
  going : s.peer.reader.exit? = none → taken.findSome? (Arrival.exit? limit) = none
  stopped : ∀ exit, s.peer.reader.exit? = some exit → StoppedBy limit taken exit ∨
    exit = .deadlineExceeded ∧ taken.findSome? (Arrival.exit? limit) = none ∧ available <+: taken

namespace Session

variable {settings : Settings} {now : Instant} {s t : Session} {arrival : Arrival}
  {available taken : List Arrival}

/-- Taking the next arrival. -/
theorem HasTaken.take (htaken : s.HasTaken settings.maxFrameBytes available taken)
    (htakes : s.Takes settings now arrival t) :
    t.HasTaken settings.maxFrameBytes available (taken ++ [arrival]) := by
  cases htakes with
  | @lead deadline inbox next hreader hinbox hleads =>
      have hnone : taken.findSome? (Arrival.exit? settings.maxFrameBytes) = none := by
        apply htaken.going
        rw [hreader]
        rfl
      have hfirst : (taken ++ [arrival]).findSome? (Arrival.exit? settings.maxFrameBytes) =
          next.exit? := by
        rw [List.findSome?_append, hnone, hleads.exit?_eq]
        simp
      constructor
      · have hqueued := htaken.queued
        rw [hinbox] at hqueued
        simpa [setReader, fetched, mapPeer, Peer.fetch] using hqueued
      · intro hgoes
        exact hfirst.trans hgoes
      · intro exit hexit
        exact .inl ⟨taken, arrival, rfl, hnone, hleads.exit?_eq.symm.trans hexit⟩

/-- Going on without taking anything, unless that is for having been told to leave. -/
theorem HasTaken.move {limit : Nat} (htaken : s.HasTaken limit available taken)
    (hmoves : s.Moves settings now t.peer.reader)
    (hfree : s.peer.reader.deadline?.isSome = true → s.connection.cancelled = false)
    {more : List Arrival} (hinbox : t.peer.inbox = s.peer.inbox ++ more) :
    t.HasTaken limit available taken := by
  have hqueued : available <+: taken ++ t.peer.inbox := by
    rw [hinbox, ← List.append_assoc]
    exact htaken.queued.trans (List.prefix_append _ _)
  -- A pump that leaves for its own reasons has left for them before.
  have hkept : ∀ {reader : ReadPump}, reader = s.peer.reader → reader.exit? = t.peer.reader.exit? →
      t.HasTaken limit available taken := by
    rintro _ rfl hexit
    exact ⟨hqueued, fun hgoes => htaken.going (hexit.trans hgoes),
      fun exit hstops => htaken.stopped exit (hexit.trans hstops)⟩
  generalize hreader' : t.peer.reader = reader' at hmoves
  cases hmoves with
  | stay => exact hkept rfl (by rw [hreader'])
  | join hreader =>
      have hawaits := ReadPump.awaits_awaiting settings now
      exact hkept hreader.symm (by rw [hreader', hawaits.exit?]; rfl)
  | handle hreader _ | conclude hreader | leave hreader | finish hreader =>
      exact hkept hreader.symm (by rw [hreader']; rfl)
  | expire hreader hempty hlate =>
      have hnone : taken.findSome? (Arrival.exit? limit) = none := by
        apply htaken.going
        rw [hreader]
        rfl
      have hall : available <+: taken := by
        have hqueued := htaken.queued
        rwa [hempty, List.append_nil] at hqueued
      refine ⟨hqueued, fun _ => hnone, ?_⟩
      intro exit hexit
      rw [hreader'] at hexit
      exact .inr ⟨(Option.some.inj hexit).symm, hnone, hall⟩
  | cancel hreader hcancelled =>
      rw [hfree (by rw [hreader]; rfl)] at hcancelled
      cases hcancelled

/-- What a read pump has taken ends with what stops it, if that was among it. -/
theorem HasTaken.ends {limit : Nat} (htaken : s.HasTaken limit available taken) :
    taken.findSome? (Arrival.exit? limit) = none ∨ ∃ exit, StoppedBy limit taken exit := by
  cases hexit : s.peer.reader.exit? with
  | none => exact .inl (htaken.going hexit)
  | some exit =>
      rcases htaken.stopped exit hexit with hstopped | ⟨-, hnone, -⟩
      · exact .inr ⟨exit, hstopped⟩
      · exact .inl hnone

/-- It has routed the envelopes of what it has listened to, and has taken one arrival more at
most. -/
theorem HasTaken.heard_eq {limit : Nat} (htaken : s.HasTaken limit available taken) :
    taken.length ≤ (heard limit taken).length + 1 ∧
      taken.filterMap (Arrival.routed? limit) =
        (heard limit taken).filterMap Arrival.envelope? := by
  rcases htaken.ends with hnone | ⟨exit, hstopped⟩
  · rw [heard_eq_self hnone]
    exact ⟨Nat.le_succ _, filterMap_routed?_of_going hnone⟩
  · obtain ⟨hlength, hrouted⟩ := hstopped.heard_eq
    exact ⟨Nat.le_of_eq hlength, hrouted⟩

variable {inbox arrived : List Arrival} {limit : Nat}

/-- A read pump that has stopped, or has nothing left, has listened to all of what was available
that it should listen to. -/
theorem HasTaken.heard_available (htaken : s.HasTaken limit available taken)
    (hqueue : taken ++ inbox = available ++ arrived)
    (hdone : s.peer.reader.exit?.isSome = true ∨ inbox = []) :
    heard limit available <+: heard limit taken := by
  rcases hdone with hstopped | rfl
  · obtain ⟨exit, hexit⟩ := Option.isSome_iff_exists.mp hstopped
    rcases htaken.stopped exit hexit with hstopped | ⟨-, -, rest, rfl⟩
    · have hsame : heard limit (taken ++ inbox) = heard limit taken :=
        heard_append_of_stopped hstopped.findSome?_eq
      rw [← hsame, hqueue]
      exact heard_prefix limit available arrived
    · exact heard_prefix limit available rest
  · rw [List.append_nil] at hqueue
    rw [hqueue]
    exact heard_prefix limit available arrived

/-- What stops a read pump first among what is available decides why it leaves. -/
theorem HasTaken.exit_eq {exit found : Exit} (htaken : s.HasTaken limit available taken)
    (hqueue : taken ++ inbox = available ++ arrived)
    (hstops : available.findSome? (Arrival.exit? limit) = some exit)
    (hfound : s.peer.reader.exit? = some found) : found = exit := by
  rcases htaken.stopped found hfound with hstopped | ⟨-, hnone, rest, rfl⟩
  · have hfirst := congrArg (List.findSome? (Arrival.exit? limit)) hqueue
    rw [List.findSome?_append, List.findSome?_append, hstopped.findSome?_eq, hstops] at hfirst
    exact Option.some.inj hfirst
  · rw [List.findSome?_append, hstops] at hnone
    cases hnone

/-- The read pump of a session has left only when it has begun to close the connection. -/
theorem Step.closing_of_left {h : Handle} {happening : Happening} {removal : Option Remover}
    {lines : List LogEvent} (hstep : s.Step settings now h happening removal lines t)
    (hhere : s.peer.hasLeft = false) (hleft : t.peer.hasLeft = true) :
    t.connection.cancelled = true ∧ t.connection.Sound := by
  have hsame : t.peer.reader = s.peer.reader → False := by
    intro hreader
    rw [Peer.hasLeft, hreader, ← Peer.hasLeft, hhere] at hleft
    cases hleft
  have hstays : t.peer.reader.isUnderway = true → False := by
    intro hunderway
    rw [(Peer.underway hunderway).2.1] at hleft
    cases hleft
  cases hstep with
  | rest happening => exact (hsame rfl).elim
  | write hwrites => exact (hsame hwrites.reading_eq.1).elim
  | touch _ htouched =>
      cases htouched with
      | pushed hpushed => exact (hsame (by rw [hpushed.peer_eq])).elim
      | struck _ _ | arrive _ _ _ | answer _ | resink _ => exact (hsame rfl).elim
      | lapse _ _ => exact (hstays rfl).elim
  | read hreads =>
      cases hreads with
      | leave hreader =>
          exact ⟨Connection.cancelled_beginClose _, Connection.sound_beginClose _⟩
      | finish hreader _ => simp [Peer.hasLeft, hreader] at hhere
      | join _ => exact (hstays (ReadPump.awaits_awaiting settings now).underway).elim
      | take _ _ _ hleads => exact (hstays hleads.underway).elim
      | expire _ _ _ _ | cancel _ _ | handle _ _ _ | conclude _ => exact (hstays rfl).elim

end Session

namespace Hub

variable {hub : Hub} {h : Handle} {s t : Session} {happening : Happening}
  {happenings : List Happening} {arrival : Arrival}

/-- The envelope that the read pump of a connection routes by what happens. -/
def routes? (hub : Hub) (h : Handle) (happening : Happening) : Option Envelope :=
  (hub.takes? h happening).bind (Arrival.routed? hub.settings.maxFrameBytes)

/-- The envelopes that the read pump of a connection routes in a run, in order. -/
def routed (h : Handle) : Hub → List Happening → List Envelope
  | _, [] => []
  | hub, happening :: happenings =>
      (hub.routes? h happening).toList ++ routed h (hub.after happening) happenings

/-- Nobody has told a read pump to leave that waits or handles an event. -/
def isLeftAlone (hub : Hub) (h : Handle) : Bool :=
  (hub.session? h).all fun s => s.peer.reader.deadline?.isNone || !s.connection.cancelled

/-- Nobody tells a read pump to leave throughout a run, before it leaves by itself. -/
def leavesAlone (h : Handle) : Hub → List Happening → Bool
  | hub, [] => hub.isLeftAlone h
  | hub, happening :: happenings =>
      hub.isLeftAlone h && leavesAlone h (hub.after happening) happenings

theorem free_of_isLeftAlone (halone : hub.isLeftAlone h = true) (hs : hub.session? h = some s)
    (hdeadline : s.peer.reader.deadline?.isSome = true) : s.connection.cancelled = false := by
  rw [isLeftAlone, hs, Option.all_some, ← Option.not_isSome, hdeadline] at halone
  simpa using halone

theorem isLeftAlone_of_leavesAlone (halone : hub.leavesAlone h happenings = true) :
    hub.isLeftAlone h = true := by
  cases happenings with
  | nil => exact halone
  | cons happening happenings =>
      rw [leavesAlone, Bool.and_eq_true] at halone
      exact halone.1

/-- What is routed is what is taken and can be routed. -/
theorem routed_eq (hs : hub.session? h = some s) (happenings : List Happening) :
    hub.routed h happenings =
      (hub.taken h happenings).filterMap (Arrival.routed? hub.settings.maxFrameBytes) := by
  induction happenings generalizing hub s with
  | nil => rfl
  | cons happening happenings ih =>
      obtain ⟨t, ht, -⟩ := takes_or_moves hs happening
      rw [routed, taken, ih ht, settings_after hs, List.filterMap_append, routes?]
      cases hub.takes? h happening with
      | none => rfl
      | some arrival =>
          rw [Option.bind_some, Option.toList_some, List.filterMap_cons]
          cases arrival.routed? hub.settings.maxFrameBytes <;> rfl

theorem take_of_data? {data : List UInt8} (hdata : arrival.data? = some data) (hub : Hub)
    (h : Handle) (user : UserId) (deadline : Instant) :
    hub.take h user deadline arrival = hub.takeData h user deadline data := by
  cases arrival with
  | text _ | binary _ =>
      obtain rfl := Option.some.inj hdata
      rfl
  | ping _ | pong _ | close | failure _ | ended => cases hdata

/-- The envelope in an arrival is routed. -/
theorem take_of_routed? (hub : Hub) {envelope : Envelope}
    (hrouted : arrival.routed? hub.settings.maxFrameBytes = some envelope) (h : Handle)
    (user : UserId) (deadline : Instant) :
    hub.take h user deadline arrival = hub.route h user deadline envelope := by
  obtain ⟨data, hdata, hdecoded⟩ := Option.bind_eq_some_iff.mp hrouted
  rw [take_of_data? hdata, takeData]
  split at hdecoded
  · cases hdecoded
  · next hsmall =>
      rw [if_neg hsmall]
      cases hframe : Envelope.ofFrame data with
      | error failure =>
          rw [hframe] at hdecoded
          cases hdecoded
      | ok found =>
          rw [hframe] at hdecoded
          obtain rfl := Option.some.inj hdecoded
          rfl

/-- An arrival without one is logged at most. -/
theorem take_of_unrouted (hub : Hub) (hrouted : arrival.routed? hub.settings.maxFrameBytes = none)
    (h : Handle) (user : UserId) (deadline : Instant) :
    ∃ entries, hub.take h user deadline arrival =
      (hub.log entries).setReader h (arrival.unroutedTo hub.settings hub.now deadline) := by
  have hquiet : ∀ reader, hub.setReader h reader = (hub.log []).setReader h reader := by
    intro reader
    simp [log]
  cases hdata : arrival.data? with
  | none =>
      cases arrival with
      | text _ | binary _ => cases hdata
      | ping _ | pong _ | close | failure _ | ended => exact ⟨[], hquiet _⟩
  | some data =>
      rw [Arrival.routed?, hdata, Option.bind_some] at hrouted
      rw [take_of_data? hdata, takeData, Arrival.unroutedTo, Arrival.exit?_of_data? hdata]
      split at hrouted
      · next hlarge =>
          rw [if_pos hlarge, if_pos hlarge]
          exact ⟨[], hquiet _⟩
      · next hsmall =>
          rw [if_neg hsmall, if_neg hsmall, Arrival.isPong_of_data? hdata]
          cases hframe : Envelope.ofFrame data with
          | error failure => exact ⟨[(some h, .undecodable failure)], rfl⟩
          | ok envelope =>
              rw [hframe] at hrouted
              cases hrouted

/-- A routed envelope is handed to the router. -/
theorem after_of_routes? {envelope : Envelope} (hroutes : hub.routes? h happening = some envelope) :
    ∃ arrival s deadline inbox, hub.takes? h happening = some arrival ∧
      hub.session? h = some s ∧ s.peer.reader = .waiting deadline ∧
      s.peer.inbox = arrival :: inbox ∧ hub.after happening =
        (hub.fetched h arrival inbox).route h s.connection.user deadline envelope := by
  obtain ⟨arrival, htakes, hrouted⟩ := Option.bind_eq_some_iff.mp hroutes
  obtain ⟨s, deadline, inbox, hs, hreader, hinbox, hafter⟩ := after_of_takes? htakes
  refine ⟨arrival, s, deadline, inbox, htakes, hs, hreader, hinbox, hafter.trans ?_⟩
  exact (hub.fetched h arrival inbox).take_of_routed? hrouted h s.connection.user deadline

/-- What is taken without being routed does nothing to the service. -/
theorem service_after_of_takes? (htakes : hub.takes? h happening = some arrival)
    (hroutes : hub.routes? h happening = none) :
    (hub.after happening).service = hub.service := by
  rw [routes?, htakes, Option.bind_some] at hroutes
  obtain ⟨s, deadline, inbox, -, -, -, hafter⟩ := after_of_takes? htakes
  obtain ⟨entries, htake⟩ :=
    (hub.fetched h arrival inbox).take_of_unrouted hroutes h s.connection.user deadline
  rw [hafter, htake]
  rfl

/-- What a read pump has taken after a run in which nobody told it to leave. -/
theorem hasTaken_run (hs : hub.session? h = some s) {available taken : List Arrival}
    (htaken : s.HasTaken hub.settings.maxFrameBytes available taken)
    (halone : hub.leavesAlone h happenings = true) :
    ∃ t, (hub.run happenings).session? h = some t ∧
      t.HasTaken hub.settings.maxFrameBytes available (taken ++ hub.taken h happenings) := by
  induction happenings generalizing hub s taken with
  | nil =>
      rw [Hub.taken, List.append_nil]
      exact ⟨s, hs, htaken⟩
  | cons happening happenings ih =>
      have hfree := free_of_isLeftAlone (isLeftAlone_of_leavesAlone halone) hs
      rw [leavesAlone, Bool.and_eq_true] at halone
      obtain ⟨between, hbetween, hstep⟩ := takes_or_moves hs happening
      have hnext : between.HasTaken hub.settings.maxFrameBytes available
          (taken ++ (hub.takes? h happening).toList) := by
        rcases hstep with ⟨arrival, htakes, htook⟩ | ⟨htakes, hmoves, more, hmore⟩
        · rw [htakes]
          exact htaken.take htook
        · rw [htakes, Option.toList_none, List.append_nil]
          exact htaken.move hmoves hfree hmore
      rw [← settings_after hs happening] at hnext ⊢
      obtain ⟨t, ht, hlast⟩ := ih hbetween hnext halone.2
      rw [List.append_assoc] at hlast
      exact ⟨t, ht, hlast⟩

/-- Once its read pump has left, a session is off the registry, its pumps were told to leave and its
connection is closing or closed; no later run changes that. -/
theorem left_run (hs : hub.session? h = some s) {removals : List Remover}
    {lines : List LogEvent} (haccount : s.Accounted removals lines)
    (hclosing : s.peer.hasLeft = true → s.connection.cancelled = true ∧ s.connection.Sound)
    (happenings : List Happening) (ht : (hub.run happenings).session? h = some t)
    (hleft : t.peer.hasLeft = true) :
    t.registered = false ∧ t.connection.cancelled = true ∧ t.connection.Sound := by
  induction happenings generalizing hub s removals lines with
  | nil =>
      obtain rfl := Option.some.inj (hs.symm.trans ht)
      exact ⟨haccount.left hleft, hclosing hleft⟩
  | cons happening happenings ih =>
      obtain ⟨removal, told, between, hshows, hstep⟩ := shows_after hs happening
      refine ih hshows.session (haccount.step hstep) ?_ ht
      intro hbetween
      cases hhere : s.peer.hasLeft with
      | false => exact hstep.closing_of_left hhere hbetween
      | true =>
          obtain ⟨-, hget, -⟩ := session?_eq_some_iff.mp hs
          obtain ⟨-, hget', -⟩ := session?_eq_some_iff.mp hshows.session
          have hkept : ∀ (change : Connection.Change) (c : Connection),
              c.cancelled = true ∧ c.Sound →
                (change.apply c).cancelled = true ∧ (change.apply c).Sound :=
            fun change c hc => ⟨Connection.cancelled_apply change hc.1, hc.2.apply change⟩
          obtain ⟨d, hd, hlater⟩ := (acted_run hub [happening]).keeps hkept hget (hclosing hhere)
          obtain rfl := Option.some.inj (hget'.symm.trans hd)
          exact hlater

end Hub

end ListingHub
