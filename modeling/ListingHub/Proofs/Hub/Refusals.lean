import ListingHub.Proofs.Dispatch.Failures
import ListingHub.Proofs.Session.Run

/-!
# Who refuses an event for its type

The router refuses the types that are no kind's name, and nothing else refuses any: the dispatcher
is only given events of the other types, and a job only fails by its work. Every step of every run
keeps it so, and the log shows no refusal but those of the router.
-/

namespace ListingHub

namespace ReadPump

/-- What the event that a read pump handles has failed with. -/
def failure? : ReadPump → Option Failure
  | handling _ _ work => work.failure?
  | _ => none

/-- A read pump handles decoded events only. -/
def Decodes : ReadPump → Prop
  | handling _ job work => job.Decoded work
  | _ => True

theorem Decodes.ofWork {reader : ReadPump} (h : reader.Decodes) {failure : Failure}
    (hfailure : reader.failure? = some failure) : failure.OfWork := by
  cases reader with
  | handling _ _ work => exact h.failure failure hfailure
  | joining | waiting _ | leaving _ | draining _ | done _ | crashed => cases hfailure

theorem Awaits.decodes {reader : ReadPump} (hawaits : reader.Awaits) : reader.Decodes := by
  cases hawaits <;> trivial

end ReadPump

namespace Hub

/-- A hub whose router knows the kinds by their names, whose jobs have decoded events, and whose log
tells of no refusal but those of the router. -/
structure KnowsKinds (hub : Hub) : Prop where
  router : hub.service.router = .filled NotificationKind.registrations
  readers : ∀ reader ∈ hub.outline.readers, reader.Decodes
  journal : ∀ entry ∈ hub.journal, entry.2.Warranted

variable {hub next : Hub} {g : Handle} {user : UserId} {deadline : Instant} {envelope : Envelope}
  {peer : Peer}

namespace KnowsKinds

theorem log (h : hub.KnowsKinds) {entries : List Entry}
    (hentries : ∀ entry ∈ entries, entry.2.Warranted) : (hub.log entries).KnowsKinds :=
  ⟨h.router, h.readers, List.forall_mem_append.mpr ⟨h.journal, hentries⟩⟩

theorem tell (h : hub.KnowsKinds) (source : Option Handle) (event : LogEvent)
    (hevent : event.Warranted) : (hub.log [(source, event)]).KnowsKinds :=
  h.log (List.forall_mem_singleton.mpr hevent)

/-- A change of the service that leaves the router alone. -/
theorem serve (h : hub.KnowsKinds) {service : Service}
    (hrouter : service.router = hub.service.router) :
    KnowsKinds { hub with service } :=
  ⟨hrouter.trans h.router, h.readers, h.journal⟩

theorem mapBoard (h : hub.KnowsKinds) (f : Switchboard → Switchboard) :
    (hub.mapBoard f).KnowsKinds :=
  h.serve rfl

theorem setReader (h : hub.KnowsKinds) (g : Handle) {reader : ReadPump} (hreader : reader.Decodes) :
    (hub.setReader g reader).KnowsKinds := by
  refine ⟨h.router, fun other hother => ?_, h.journal⟩
  rw [outline_setReader] at hother
  rcases List.mem_or_eq_of_mem_set hother with hold | rfl
  · exact h.readers other hold
  · exact hreader

/-- A change of a peer that does not move its read pump. -/
theorem modifyPeer (h : hub.KnowsKinds) (g : Handle) {f : Peer → Peer}
    (hreader : ∀ peer, (f peer).reader = peer.reader) : (hub.modifyPeer g f).KnowsKinds := by
  refine ⟨h.router, ?_, h.journal⟩
  have hsame : (hub.modifyPeer g f).outline.readers = hub.outline.readers :=
    map_modify_of_eq hreader hub.peers g
  rw [hsame]
  exact h.readers

theorem setWriter (h : hub.KnowsKinds) (g : Handle) (writer : WritePump) :
    (hub.setWriter g writer).KnowsKinds :=
  h.modifyPeer g fun _ => rfl

theorem conclude (h : hub.KnowsKinds) (g : Handle) {eventType : String}
    {outcome : Except Failure Unit} (houtcome : ∀ failure, outcome = .error failure →
      (LogEvent.notProcessed user eventType failure).Warranted) :
    (hub.conclude g user eventType outcome).KnowsKinds := by
  cases outcome with
  | ok _ => exact h
  | error failure =>
      exact h.tell (some g) (.notProcessed user eventType failure) (houtcome failure rfl)

theorem teardown (h : hub.KnowsKinds) (g : Handle) (exit : Exit) :
    (hub.teardown g exit).KnowsKinds := by
  refine (h.mapBoard fun board => (board.remove g).2.beginClose g).log ?_
  split
  · exact List.forall_mem_singleton.mpr trivial
  · exact List.forall_mem_nil _

/-! ### The read pump -/

/-- The router refuses what no kind has for a name, and gives everything else to the dispatcher. -/
theorem route (h : hub.KnowsKinds) (g : Handle) (user : UserId) (deadline : Instant)
    (envelope : Envelope) : (hub.route g user deadline envelope).KnowsKinds := by
  have hwaiting : (hub.setReader g (.waiting deadline)).KnowsKinds := h.setReader g trivial
  unfold Hub.route
  split
  · next hnone =>
      rw [h.router, Router.find?_filled_eq_none_iff, NotificationKind.mem_registrations_iff,
        not_exists] at hnone
      exact hwaiting.tell (some g) (.notProcessed user _ (.unknownEventType _)) ⟨rfl, hnone⟩
  · next tag fails _ =>
      have hprobed : KnowsKinds { hub.setReader g (.waiting deadline) with
          service := (hub.service.probe tag fails user envelope).2 } := hwaiting.serve rfl
      refine hprobed.conclude g fun failure hfailure => ?_
      cases fails with
      | none => cases hfailure
      | some reason =>
          cases hfailure
          trivial
  · split
    · next failure hfailure =>
        rw [Job.ofEnvelope_eq_error_iff] at hfailure
        exact hwaiting.tell (some g) (.notProcessed user _ failure)
          (Event.warranted_of_error hfailure user)
    · next job hjob => exact h.setReader g (Job.decoded_ofEnvelope hjob)

theorem takeData (h : hub.KnowsKinds) (g : Handle) (user : UserId) (deadline : Instant)
    (data : List UInt8) : (hub.takeData g user deadline data).KnowsKinds := by
  unfold Hub.takeData
  split
  · exact h.setReader g trivial
  · split
    · next failure _ =>
        exact (h.tell (some g) (.undecodable failure) trivial).setReader g trivial
    · exact h.route g user deadline _

theorem take (h : hub.KnowsKinds) (g : Handle) (user : UserId) (deadline : Instant)
    (arrival : Arrival) : (hub.take g user deadline arrival).KnowsKinds := by
  cases arrival with
  | text data => exact h.takeData g user deadline _
  | binary data => exact h.takeData g user deadline data
  | pong size => exact h.setReader g (ReadPump.awaits_awaiting hub.settings hub.now).decodes
  | ping size | close | failure reason | ended => exact h.setReader g trivial

theorem takeNext (h : hub.KnowsKinds) (hnext : hub.takeNext g peer user deadline = some next) :
    next.KnowsKinds := by
  unfold Hub.takeNext at hnext
  split at hnext
  · next arrival inbox _ =>
      obtain rfl := Option.some.inj hnext
      have hfetched : (hub.modifyPeer g fun peer => { peer.fetch inbox with
          sink := answer peer.transport arrival peer.sink }).KnowsKinds :=
        h.modifyPeer g fun _ => rfl
      exact hfetched.take g user deadline arrival
  · split at hnext
    · obtain rfl := Option.some.inj hnext
      exact h.setReader g trivial
    · cases hnext

theorem handleNext (h : hub.KnowsKinds) {job : Job} {work : Handling} (hwork : job.Decoded work)
    (hnext : hub.handleNext g deadline job work = some next) : next.KnowsKinds := by
  unfold Hub.handleNext at hnext
  split at hnext
  · next outcome =>
      obtain rfl := Option.some.inj hnext
      have hwaiting : (hub.setReader g (.waiting deadline)).KnowsKinds := h.setReader g trivial
      refine hwaiting.conclude g fun failure hfailure => ?_
      obtain rfl := hfailure
      exact (hwork.failure failure rfl).warranted _ _
  · obtain ⟨⟨work', service, log⟩, hstep, rfl⟩ := Option.map_eq_some_iff.mp hnext
    have hrouter : service.router = hub.service.router := by
      rcases job.step_cases deadline hstep with
        ⟨-, rfl⟩ | ⟨recording, wake, time, -, -, rfl⟩ | ⟨recipients, broadcast, -, -, rfl⟩ <;> rfl
    exact ((h.serve hrouter).log (job.warranted_step hstep)).setReader g (hwork.step hstep)

theorem reader (h : hub.KnowsKinds) (hpeer : hub.peers[g]? = some peer) : peer.reader.Decodes :=
  h.readers _ (List.mem_of_getElem? (readers_of_peer hpeer))

theorem readStep (h : hub.KnowsKinds) {cancelFirst : Bool}
    (hstep : Hub.readStep cancelFirst g hub = some next) : next.KnowsKinds := by
  unfold Hub.readStep at hstep
  split at hstep
  · next peer c hpeer hget =>
      have hreader := h.reader hpeer
      split at hstep
      · obtain rfl := Option.some.inj hstep
        have hjoined : (hub.mapBoard fun board => (board.add g).2).KnowsKinds := h.mapBoard _
        exact (hjoined.tell (some g) (.opened c.identity) trivial).setReader g
          (ReadPump.awaits_awaiting hub.settings hub.now).decodes
      · simp only at hstep
        split at hstep
        · obtain rfl := Option.some.inj hstep
          exact h.setReader g trivial
        · exact h.takeNext hstep
      · next deadline job work hhandling =>
          rw [hhandling] at hreader
          exact h.handleNext hreader hstep
      · obtain rfl := Option.some.inj hstep
        exact (h.teardown g _).setReader g trivial
      · next exit _ =>
          obtain ⟨write, -, rfl⟩ := Option.map_eq_some_iff.mp hstep
          have hclosed :
              (hub.mapBoard fun board => board.modify g Connection.markClosed).KnowsKinds :=
            h.mapBoard _
          exact (hclosed.tell (some g) (.closed c.user exit write) trivial).setReader g trivial
      · cases hstep
      · cases hstep
  · cases hstep

theorem lapse (h : hub.KnowsKinds) (hstep : Hub.lapse g hub = some next) : next.KnowsKinds := by
  obtain ⟨deadline, job, work, wake, hreader, -, rfl⟩ := lapse_cases hstep
  obtain ⟨peer, hpeer, hhandling⟩ := Option.map_eq_some_iff.mp hreader
  have hdecoded := h.reader hpeer
  rw [hhandling] at hdecoded
  refine h.setReader g ⟨hdecoded.limit, fun failure hfailure => ?_⟩
  cases hfailure
  exact hdecoded.limit

/-! ### The write pump -/

theorem stopWriter (h : hub.KnowsKinds) (g : Handle) (writer : WritePump) :
    (hub.stopWriter g writer).KnowsKinds :=
  (h.mapBoard _).setWriter g writer

theorem startWriter (h : hub.KnowsKinds) (g : Handle) : (hub.startWriter g).KnowsKinds := by
  unfold Hub.startWriter
  split
  · exact h.setWriter g _
  · exact (h.mapBoard _).setWriter g _

theorem idleStep (h : hub.KnowsKinds) {c : Connection} {due : Instant}
    (hstep : hub.idleStep g c due = some next) : next.KnowsKinds := by
  unfold Hub.idleStep at hstep
  split at hstep
  · obtain rfl := Option.some.inj hstep
    exact h.stopWriter g _
  · split at hstep
    · obtain rfl := Option.some.inj hstep
      exact (h.mapBoard _).setWriter g _
    · obtain rfl := Option.some.inj hstep
      exact h.stopWriter g _
    · obtain rfl := Option.some.inj hstep
      exact h.stopWriter g _
    · split at hstep
      · obtain rfl := Option.some.inj hstep
        exact h.setWriter g _
      · cases hstep

theorem written (h : hub.KnowsKinds) (g : Handle) (sink : Sink) (frame : Frame) :
    (hub.written g sink frame).KnowsKinds :=
  h.modifyPeer g fun _ => rfl

theorem writeStep (h : hub.KnowsKinds) (hstep : Hub.writeStep g hub = some next) :
    next.KnowsKinds := by
  unfold Hub.writeStep at hstep
  split at hstep
  · split at hstep
    · split at hstep
      · cases hstep
      · obtain rfl := Option.some.inj hstep
        exact h.startWriter g
    · exact h.idleStep hstep
    · obtain ⟨outcome, -, rfl⟩ := Option.map_eq_some_iff.mp hstep
      cases outcome with
      | ok sink => exact (h.written g sink _).setWriter g _
      | error reason => exact h.stopWriter g _
    · obtain ⟨outcome, -, rfl⟩ := Option.map_eq_some_iff.mp hstep
      cases outcome with
      | ok sink => exact (h.written g sink _).setWriter g _
      | error reason => exact h.setWriter g _
    · obtain rfl := Option.some.inj hstep
      exact ((h.teardown g _).mapBoard _).setWriter g _
    · cases hstep
    · cases hstep
  · cases hstep

/-! ### What comes from outside -/

theorem fail (h : hub.KnowsKinds) (failure : Failure) : (Http.fail failure hub).2.KnowsKinds := by
  refine h.log fun entry hentry => ?_
  obtain ⟨event, hevent, rfl⟩ := List.mem_map.mp hentry
  unfold Http.failureLog at hevent
  split at hevent
  · obtain rfl := List.mem_singleton.mp hevent
    trivial
  · cases hevent

theorem accept (h : hub.KnowsKinds) (identity : Identity) (transport : Transport) :
    (hub.accept identity transport).2.KnowsKinds := by
  refine ⟨h.router, fun reader hreader => ?_, h.journal⟩
  have hreaders : (hub.accept identity transport).2.outline.readers =
      hub.outline.readers ++ [.joining] := List.map_append
  rw [hreaders, List.mem_append, List.mem_singleton] at hreader
  rcases hreader with hold | rfl
  · exact h.readers reader hold
  · trivial

theorem upgrade (h : hub.KnowsKinds) (request : Http.Request) :
    (Http.upgrade request hub).2.KnowsKinds := by
  unfold Http.upgrade
  split
  · exact h
  · split
    · exact h.fail _
    · exact h.accept _ .webSocket

theorem listNotifications (h : hub.KnowsKinds) (request : Http.Request) :
    (Http.listNotifications request hub).2.KnowsKinds := by
  simp only [Http.listNotifications]
  split
  · exact h.fail _
  · exact h

theorem toggleRead (h : hub.KnowsKinds) (segment : String) (request : Http.Request) :
    (Http.toggleRead segment request hub).2.KnowsKinds := by
  unfold Http.toggleRead
  simp only
  split
  · exact h.fail _
  · split
    · exact h
    · split
      · next store _ =>
          have htended : KnowsKinds { hub with service := { hub.service with store } } :=
            h.serve rfl
          exact htended.fail _
      · exact h.serve rfl

theorem respond (h : hub.KnowsKinds) (request : Http.Request) :
    (Http.respond request hub).2.KnowsKinds := by
  unfold Http.respond
  simp only
  split
  · exact h
  · split
    · exact h
    · next route _ =>
        split
        · cases route with
          | health | upgrade => exact h
          | notifications => exact h.listNotifications request
          | readFlag segment => exact h.toggleRead segment request
        · exact h

theorem arrive (h : hub.KnowsKinds) (g : Handle) (arrival : Arrival) :
    (hub.arrive g arrival).2.KnowsKinds := by
  rcases hub.arrive_cases g arrival with hsame | ⟨peer, arrived, -, -, -, hnext⟩
  · rw [hsame]
    exact h
  · rw [hnext]
    exact h.modifyPeer g fun _ => rfl

theorem answerStep (h : hub.KnowsKinds) (hstep : Hub.answerStep g hub = some next) :
    next.KnowsKinds := by
  obtain ⟨peer, -, -, rfl⟩ := answerStep_cases hstep
  exact h.modifyPeer g fun _ => rfl

/-- A task that has to wait leaves the hub as it is. -/
theorem getD (h : hub.KnowsKinds) {attempt : Option Hub}
    (hstep : ∀ next, attempt = some next → next.KnowsKinds) : (attempt.getD hub).KnowsKinds := by
  cases attempt with
  | none => exact h
  | some next => exact hstep next rfl

/-- Whatever happens, a hub goes on knowing the kinds. -/
theorem after (h : hub.KnowsKinds) (happening : Happening) : (hub.after happening).KnowsKinds := by
  cases happening with
  | accept identity transport => exact h.accept identity transport
  | upgrade request => exact h.upgrade request
  | request request => exact h.respond request
  | arrive g arrival => exact h.arrive g arrival
  | block g _ | breakSink g _ => exact h.modifyPeer g fun _ => rfl
  | read g cancelFirst => exact h.getD fun _ => h.readStep
  | lapse g => exact h.getD fun _ => h.lapse
  | write g => exact h.getD fun _ => h.writeStep
  | answer g => exact h.getD fun _ => h.answerStep
  | closeAll => exact h.mapBoard fun board => board.closeAll.2
  | remove g => exact h.mapBoard fun board => (board.remove g).2
  | pass nanos => exact ⟨h.router, h.readers, h.journal⟩
  | faults _ | setAgent _ _ | addFavorite _ _ | addSession _ _ | create _ _ => exact h.serve rfl

theorem run (h : hub.KnowsKinds) (happenings : List Happening) :
    (hub.run happenings).KnowsKinds := by
  induction happenings generalizing hub with
  | nil => exact h
  | cons happening happenings ih => exact ih (h.after happening)

end KnowsKinds

/-- The application knows the kinds from the start. -/
theorem knowsKinds_new (settings : Settings) (handlerTimeout : Duration) (store : Store)
    (faults : Faults) (start : Timestamp) :
    (Hub.new settings handlerTimeout store faults start).KnowsKinds where
  router := Service.router_registerDispatcher rfl
  readers := List.forall_mem_nil _
  journal := List.forall_mem_nil _

/-- Whatever reads a notification type takes the name of a kind for that kind and refuses every
other text: the search by name, the router of the application after any run, the decoder of
envelopes whatever the payload, the reader of JSON texts however the string is spelled, and the
conversion of rows whatever else they hold. An event that is decoded is of the kind that its type
names. So the dispatcher, which the router alone gives events to, refuses none for its type: neither
when it does all its work at once nor as a job of a run, and every refusal in the log is of a type
that is no kind's name. -/
theorem kinds_read_alike (settings : Settings) (handlerTimeout : Duration) (store : Store)
    (faults : Faults) (start : Timestamp) (happenings : List Happening) (eventType : String) :
    let hub := (Hub.new settings handlerTimeout store faults start).run happenings
    let kind? := NotificationKind.ofName? eventType
    (∀ kind, kind? = some kind ↔ kind.name = eventType) ∧
    (hub.service.router.handles eventType = true ↔ ∃ kind, kind? = some kind) ∧
    (∀ payload, (∀ refused,
        Event.ofEnvelope ⟨eventType, payload⟩ ≠ .error (.unknownEventType refused)) ↔
      ∃ kind, kind? = some kind) ∧
    (∀ payload event, Event.ofEnvelope ⟨eventType, payload⟩ = .ok event →
      kind? = some event.kind) ∧
    Json.ofBytes (Utf8.ofText (Json.str eventType).text) = .ok (.str eventType) ∧
    (∀ bytes, Json.ofBytes bytes = .ok (.str eventType) → ∀ kind,
      Json.readAll NotificationKind.read bytes = .ok kind ↔ kind? = some kind) ∧
    (∀ row : NotificationRow, row.kind = eventType → ∀ kind,
      (∃ n, row.notification = .ok n ∧ n.kind = kind) ↔ kind? = some kind) ∧
    (∀ handler, hub.service.router.find? eventType = some handler → handler = .dispatcher ∧
      ∀ now source user payload refused,
        (hub.service.dispatch now source user ⟨eventType, payload⟩).1 ≠
          .error (.unknownEventType refused)) ∧
    (∀ peer ∈ hub.peers, ∀ refused,
      peer.reader.failure? ≠ some (.unknownEventType refused)) ∧
    ∀ source user refused,
      (source, .notProcessed user eventType (.unknownEventType refused)) ∈ hub.journal →
        refused = eventType ∧ kind? = none := by
  intro hub kind?
  have hkind : ∀ kind, kind? = some kind ↔ kind.name = eventType := fun kind =>
    NotificationKind.ofName?_eq_some_iff
  have hsome : (∃ kind, kind? = some kind) ↔ ∃ kind : NotificationKind, kind.name = eventType :=
    exists_congr hkind
  have hknows : hub.KnowsKinds :=
    (knowsKinds_new settings handlerTimeout store faults start).run happenings
  refine ⟨hkind, ?_, fun payload => ?_, fun payload event hevent => ?_, ?_, ?_, ?_, ?_, ?_, ?_⟩
  · rw [hknows.router, Router.handles_filled_iff, NotificationKind.mem_registrations_iff, hsome]
  · rw [hsome]
    exact Event.forall_ne_refusal_iff
  · exact (hkind event.kind).mpr (Event.kind_of_ofEnvelope hevent)
  · exact Json.ofBytes_text_str eventType
  · intro bytes hbytes kind
    rw [hkind]
    exact NotificationKind.readAll_read_iff hbytes
  · rintro row rfl kind
    rw [hkind]
    exact NotificationRow.exists_kind_iff
  · intro handler hhandler
    rw [hknows.router, Router.find?_filled_eq_some_iff] at hhandler
    obtain ⟨hdispatcher, kind, hname⟩ := NotificationKind.of_decides hhandler
    refine ⟨hdispatcher, fun now source user payload refused hrefused => ?_⟩
    rw [Service.dispatch_eq_refusal_iff, Event.ofEnvelope_eq_refusal_iff] at hrefused
    exact hrefused.2 kind hname
  · intro peer hpeer refused hrefused
    have hdecodes := hknows.readers _ (List.mem_map_of_mem hpeer)
    exact (hdecodes.ofWork hrefused).ne_refusal refused rfl
  · intro source user refused hentry
    obtain ⟨hsame, hnone⟩ := hknows.journal _ hentry
    exact ⟨hsame, NotificationKind.ofName?_eq_none_iff.mpr hnone⟩

/-- A user sends an event of no kind, and then favorites a listing that has no agent. -/
def hikeRun : List Happening :=
  [.accept ⟨⟨7⟩, .user⟩ .direct, .read 0 true,
    .arrive 0 (.text "[\"price_hike_notification\",null]"), .read 0 true,
    .arrive 0 (.text "[\"favorited_listing_notification\",[42,\"1 Main St\"]]"),
    .read 0 true, .read 0 true]

/-- The type of no kind is refused. The other is taken for its kind wherever it is read, also with
an underscore escaped, and the job that its event becomes fails for another reason. -/
theorem kinds_read_alike_hike :
    let hub := (Hub.new .standard ⟨10, 0, by decide, by decide⟩ .empty .none ⟨0, 0⟩).run hikeRun
    let favorited := "favorited_listing_notification"
    (some 0, .notProcessed ⟨7⟩ "price_hike_notification"
      (.unknownEventType "price_hike_notification")) ∈ hub.journal ∧
    NotificationKind.ofName? "price_hike_notification" = none ∧
    hub.service.router.handles "price_hike_notification" = false ∧
    NotificationKind.ofName? favorited = some
      (Event.favorited ⟨42⟩ "1 Main St").kind ∧
    Json.readAll NotificationKind.read
      (Utf8.ofText "\"favorited\\u005flisting_notification\"") = .ok .favoritedListing ∧
    (∃ n, NotificationRow.notification ⟨1, 7, 42, favorited, "", false, ⟨0, 0⟩⟩ = .ok n ∧
      n.kind = .favoritedListing) ∧
    hub.service.router.find? favorited = some .dispatcher ∧
    (∀ now source user payload refused,
      (hub.service.dispatch now source user ⟨favorited, payload⟩).1 ≠
        .error (.unknownEventType refused)) ∧
    ∃ peer ∈ hub.peers, peer.reader.failure? = some (.listingNotFound ⟨42⟩) ∧
      ∀ refused, peer.reader.failure? ≠ some (.unknownEventType refused) := by
  intro hub favorited
  have hhike := kinds_read_alike .standard ⟨10, 0, by decide, by decide⟩ .empty .none ⟨0, 0⟩ hikeRun
    "price_hike_notification"
  have hfavorited := kinds_read_alike .standard ⟨10, 0, by decide, by decide⟩ .empty .none ⟨0, 0⟩
    hikeRun favorited
  obtain ⟨-, hhandles, -, -, -, -, -, -, -, hlog⟩ := hhike
  obtain ⟨-, -, -, hevent, -, htext, hrow, hroute, hreaders, -⟩ := hfavorited
  have hrefused : (some 0, LogEvent.notProcessed ⟨7⟩ "price_hike_notification"
      (.unknownEventType "price_hike_notification")) ∈ hub.journal := by
    subst hub
    decide +kernel
  have hunknown : NotificationKind.ofName? "price_hike_notification" = none :=
    (hlog _ _ _ hrefused).2
  have hunhandled : hub.service.router.handles "price_hike_notification" = false := by
    rw [Bool.eq_false_iff, Ne, hhandles, hunknown]
    simp
  have hdecoded : Event.ofEnvelope ⟨favorited, .arr [.int 42, .str "1 Main St"]⟩ =
      .ok (.favorited ⟨42⟩ "1 Main St") := by
    rfl
  have hkind := hevent _ _ hdecoded
  have hspelled : Json.ofBytes (Utf8.ofText "\"favorited\\u005flisting_notification\"") =
      .ok (.str "favorited_listing_notification") := by
    with_unfolding_all rfl
  have hfind : hub.service.router.find? favorited = some .dispatcher := by
    subst hub favorited
    decide +kernel
  have hfails : ∃ peer ∈ hub.peers, peer.reader.failure? = some (.listingNotFound ⟨42⟩) := by
    subst hub
    decide +kernel
  obtain ⟨peer, hpeer, hfailure⟩ := hfails
  exact ⟨hrefused, hunknown, hunhandled, hkind, (htext _ hspelled _).mpr hkind,
    (hrow _ rfl _).mpr hkind, hfind, (hroute _ hfind).2, peer, hpeer, hfailure,
    hreaders peer hpeer⟩

end Hub

end ListingHub
