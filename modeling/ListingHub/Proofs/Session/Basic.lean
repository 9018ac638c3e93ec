import ListingHub.Proofs.Hub.Lifecycle

/-!
# One connection of a hub

A session is what a hub keeps about one connection: the peer with its two pumps, the connection and
whether it is registered. Whatever happens to the hub is for a session a step of its read pump, a
step of its write pump or a touch from elsewhere; `Reads`, `Writes` and `Touched` list them with all
they do to it, with who takes it off the registry and with what its log says of its life.
-/

namespace ListingHub

/-- The line tells of the life of its connection. -/
def LogEvent.isMilestone : LogEvent → Bool
  | opened _ | tearingDown .. | closed .. => true
  | undecodable _ | notProcessed .. | dispatched .. | queueFull .. | requestFailed _ => false

/-- What log lines tell of the life of a connection. -/
def milestonesOf (h : Handle) (entries : List Entry) : List LogEvent :=
  (entries.filter fun entry => entry.1 == some h && entry.2.isMilestone).map Prod.snd

/-- Log lines that tell of no connection's life. -/
def Quiet (entries : List Entry) : Prop :=
  ∀ entry ∈ entries, entry.2.isMilestone = false

@[simp]
theorem milestonesOf_append (h : Handle) (entries more : List Entry) :
    milestonesOf h (entries ++ more) = milestonesOf h entries ++ milestonesOf h more := by
  simp [milestonesOf]

theorem Quiet.milestonesOf {entries : List Entry} (hquiet : Quiet entries) (h : Handle) :
    milestonesOf h entries = [] := by
  rw [ListingHub.milestonesOf, List.map_eq_nil_iff, List.filter_eq_nil_iff]
  intro entry hin
  simp [hquiet entry hin]

theorem quiet_nil : Quiet [] := by
  intro entry hin
  cases hin

theorem quiet_singleton {entry : Entry} (hentry : entry.2.isMilestone = false) :
    Quiet [entry] := by
  intro other hin
  rw [List.mem_singleton.mp hin]
  exact hentry

/-- Who takes a connection off the registry. -/
inductive Remover where
  | readPump
  | writePump
  /-- A broadcast that found the queue full. -/
  | overflow
  | closeAll
  /-- No task of the hub. -/
  | outside
  deriving DecidableEq, Repr

/-- One of the connection's own pumps. -/
def Remover.isPump : Remover → Bool
  | readPump | writePump => true
  | overflow | closeAll | outside => false

/-- Whom the next step of a broadcast removes. -/
def Broadcast.evictee? : Broadcast → Option Handle
  | evicting (h :: _) _ => some h
  | evicting [] _ | choosing | delivering .. | finished _ => none

/-- Whom the next step of a handling removes. -/
def Handling.evictee? : Handling → Option Handle
  | fanningOut _ broadcast => broadcast.evictee?
  | recording .. | finished _ => none

/-- What a hub keeps about one connection. -/
structure Session where
  peer : Peer
  connection : Connection
  registered : Bool

namespace Session

/-- The session of a peer that was just let in. -/
def fresh (identity : Identity) (transport : Transport) (capacity : Nat) : Session where
  peer := .new transport
  connection := .new identity capacity
  registered := false

variable (s : Session)

/-- Moves the read pump. -/
def setReader (reader : ReadPump) : Session :=
  { s with peer := { s.peer with reader } }

/-- Moves the write pump. -/
def setWriter (writer : WritePump) : Session :=
  { s with peer := { s.peer with writer } }

/-- Changes the peer. -/
def mapPeer (f : Peer → Peer) : Session :=
  { s with peer := f s.peer }

/-- Changes the connection. -/
def mapConnection (f : Connection → Connection) : Session :=
  { s with connection := f s.connection }

/-- Registers the connection and opens it, if it is not registered yet. -/
def joined : Session :=
  { s with
    connection := if s.registered then s.connection else s.connection.markOpen.2
    registered := true }

/-- Takes the connection off and starts closing it, if it is registered. -/
def struck : Session :=
  { s with
    connection := if s.registered then s.connection.beginClose.2 else s.connection
    registered := false }

/-- Takes the connection off and starts closing it. -/
def torn : Session :=
  { s.mapConnection (fun c => c.beginClose.2) with registered := false }

/-- Who has taken the connection off by trying to. -/
def removal (remover : Remover) : Option Remover :=
  if s.registered then some remover else none

/-- What a pump that tears the connection down says in the log. -/
def tearingLines (exit : Exit) : List LogEvent :=
  if s.registered then [.tearingDown s.connection.user exit] else []

/-- A frame was written. -/
def written (sink : Sink) (frame : Frame) : Session :=
  s.mapPeer fun peer =>
    let pings := match peer.transport, frame with
      | .webSocket, .ping => 1
      | _, _ => 0
    { peer with sink, unanswered := peer.unanswered + pings }

/-- An arrival was taken from the inbox, which leaves `inbox`. -/
def fetched (arrival : Arrival) (inbox : List Arrival) : Session :=
  s.mapPeer fun peer =>
    { peer.fetch inbox with sink := Hub.answer peer.transport arrival peer.sink }

end Session

/-- The data in an arrival. -/
def Arrival.data? : Arrival → Option (List UInt8)
  | text data => some (Utf8.ofText data)
  | binary data => some data
  | ping _ | pong _ | close | failure _ | ended => none

/-- Where taking an arrival leaves a read pump that waited until a deadline. -/
inductive Arrival.Leads (settings : Settings) (now deadline : Instant) :
    Arrival → ReadPump → Prop
  | pong (size : Nat) : Leads settings now deadline (.pong size) (.awaiting settings now)
  | ping (size : Nat) : Leads settings now deadline (.ping size) (.waiting deadline)
  | close : Leads settings now deadline .close (.leaving .peerClosed)
  | ended : Leads settings now deadline .ended (.leaving .peerClosed)
  | failure (reason : String) :
      Leads settings now deadline (.failure reason) (.leaving (.transport reason))
  | tooLarge {arrival : Arrival} {data : List UInt8} (hdata : arrival.data? = some data)
      (hlarge : settings.maxFrameBytes < data.length) :
      Leads settings now deadline arrival (.leaving (.frameTooLarge data.length))
  /-- The data is no envelope, or its envelope is handled at once. -/
  | passed {arrival : Arrival} {data : List UInt8} (hdata : arrival.data? = some data)
      (hsmall : data.length ≤ settings.maxFrameBytes) :
      Leads settings now deadline arrival (.waiting deadline)
  | begun {arrival : Arrival} {data : List UInt8} (hdata : arrival.data? = some data)
      (hsmall : data.length ≤ settings.maxFrameBytes) (job : Job) :
      Leads settings now deadline arrival (.handling deadline job (.recording .lookingUp none))

namespace Session

variable {s : Session}

/-- What a step of a broadcast can do to a session. -/
inductive Pushed (s : Session) : Option Remover → Session → Prop
  | spared : Pushed s none s
  | offered (envelope : Envelope) :
      Pushed s none (s.mapConnection fun c => (c.deliver envelope).2)
  | evicted : Pushed s (s.removal .overflow) s.struck

/-- The steps of the read pump of a session, with who takes the session off and what the log says
of its life. -/
inductive Reads (settings : Settings) (now : Instant) (cancelFirst : Bool) (s : Session) :
    Option Remover → List LogEvent → Session → Prop
  | join (hreader : s.peer.reader = .joining) :
      Reads settings now cancelFirst s none [.opened s.connection.identity]
        (s.joined.setReader (.awaiting settings now))
  | take {deadline : Instant} {arrival : Arrival} {inbox : List Arrival} {next : ReadPump}
      (hreader : s.peer.reader = .waiting deadline) (hinbox : s.peer.inbox = arrival :: inbox)
      (hfree : ¬(s.connection.cancelled = true ∧ cancelFirst = true))
      (hleads : arrival.Leads settings now deadline next) :
      Reads settings now cancelFirst s none [] ((s.fetched arrival inbox).setReader next)
  | expire {deadline : Instant} (hreader : s.peer.reader = .waiting deadline)
      (hinbox : s.peer.inbox = []) (hlate : deadline ≤ now)
      (hfree : ¬(s.connection.cancelled = true ∧ cancelFirst = true)) :
      Reads settings now cancelFirst s none [] (s.setReader (.leaving .deadlineExceeded))
  | cancel {deadline : Instant} (hreader : s.peer.reader = .waiting deadline)
      (hcancelled : s.connection.cancelled = true) :
      Reads settings now cancelFirst s none [] (s.setReader (.leaving .cancelled))
  | handle {deadline : Instant} {job : Job} {work : Handling} {removal : Option Remover}
      {t : Session} (hreader : s.peer.reader = .handling deadline job work)
      (hpushed : s.Pushed removal t) (next : Handling) :
      Reads settings now cancelFirst s removal [] (t.setReader (.handling deadline job next))
  | conclude {deadline : Instant} {job : Job} {outcome : Except Failure Unit}
      (hreader : s.peer.reader = .handling deadline job (.finished outcome)) :
      Reads settings now cancelFirst s none [] (s.setReader (.waiting deadline))
  | leave {exit : Exit} (hreader : s.peer.reader = .leaving exit) :
      Reads settings now cancelFirst s (s.removal .readPump) (s.tearingLines exit)
        (s.torn.setReader (.draining exit))
  | finish {exit : Exit} {write : String} (hreader : s.peer.reader = .draining exit)
      (hended : s.peer.writer.ending? = some write) :
      Reads settings now cancelFirst s none [.closed s.connection.user exit write]
        ((s.mapConnection Connection.markClosed).setReader (.done exit))

/-- The steps of the write pump of a session. -/
inductive Writes (settings : Settings) (now : Instant) (s : Session) :
    Option Remover → List LogEvent → Session → Prop
  | start {interval : Duration} (hwriter : s.peer.writer = .starting)
      (hjoined : s.peer.reader ≠ .joining) (hinterval : settings.pingInterval = some interval) :
      Writes settings now s none [] (s.setWriter (.idle (now + interval.toNanos)))
  | crash (hwriter : s.peer.writer = .starting) (hjoined : s.peer.reader ≠ .joining)
      (hinterval : settings.pingInterval = none) :
      Writes settings now s none []
        ((s.mapConnection Connection.dropReceiver).setWriter .crashed)
  | stop {due : Instant} (hwriter : s.peer.writer = .idle due)
      (hcancelled : s.connection.cancelled = true) :
      Writes settings now s none []
        ((s.mapConnection Connection.shutReceiver).setWriter (.closing .cancelled))
  | fetch {due : Instant} {envelope : Envelope} (hwriter : s.peer.writer = .idle due)
      (hfree : s.connection.cancelled = false)
      (hreceive : s.connection.receive.1 = .envelope envelope) :
      Writes settings now s none [] ((s.mapConnection fun c => c.receive.2).setWriter
        (.sending (.text envelope.encode) due))
  | disconnect {due : Instant} (hwriter : s.peer.writer = .idle due)
      (hfree : s.connection.cancelled = false)
      (hreceive : s.connection.receive.1 = .disconnected ∨ s.connection.receive.1 = .dropped) :
      Writes settings now s none []
        ((s.mapConnection Connection.shutReceiver).setWriter (.closing .queueClosed))
  | ping {due : Instant} (hwriter : s.peer.writer = .idle due)
      (hfree : s.connection.cancelled = false) (hreceive : s.connection.receive.1 = .empty)
      (hlate : due ≤ now) :
      Writes settings now s none [] (s.setWriter (.sending .ping
        (Hub.nextDue now due ((settings.pingInterval.map Duration.toNanos).getD 0))))
  | send {frame : Frame} {due : Instant} {sink : Sink}
      (hwriter : s.peer.writer = .sending frame due)
      (hwrite : s.peer.sink.write? frame = some (.ok sink)) :
      Writes settings now s none [] ((s.written sink frame).setWriter (.idle due))
  | fail {frame : Frame} {due : Instant} {reason : String}
      (hwriter : s.peer.writer = .sending frame due)
      (hwrite : s.peer.sink.write? frame = some (.error reason)) :
      Writes settings now s none []
        ((s.mapConnection Connection.shutReceiver).setWriter (.leaving (.transport reason)))
  | farewell {exit : Exit} {sink : Sink} (hwriter : s.peer.writer = .closing exit)
      (hwrite : s.peer.sink.write? .close = some (.ok sink)) :
      Writes settings now s none [] ((s.written sink .close).setWriter (.leaving exit))
  | giveUp {exit : Exit} {reason : String} (hwriter : s.peer.writer = .closing exit)
      (hwrite : s.peer.sink.write? .close = some (.error reason)) :
      Writes settings now s none [] (s.setWriter (.leaving exit))
  | teardown {exit : Exit} (hwriter : s.peer.writer = .leaving exit) :
      Writes settings now s (s.removal .writePump) (s.tearingLines exit)
        ((s.torn.mapConnection Connection.dropReceiver).setWriter (.done exit))

/-- What happens to a session elsewhere than in its pumps. -/
inductive Touched (now : Instant) (s : Session) : Option Remover → Session → Prop
  | pushed {removal : Option Remover} {t : Session} (hpushed : s.Pushed removal t) :
      Touched now s removal t
  | struck (remover : Remover) (hother : remover.isPump = false) :
      Touched now s (s.removal remover) s.struck
  | arrive (arrival : Arrival) (hopen : s.peer.isGone = false) (hmore : s.peer.hasEnded = false) :
      Touched now s none
        (s.mapPeer fun peer => { peer with inbox := peer.inbox ++ [arrival] })
  /-- The far end answers pings. -/
  | answer (hpings : s.peer.unanswered ≠ 0) :
      Touched now s none (s.mapPeer fun peer => { peer with
        inbox := peer.inbox ++ List.replicate peer.unanswered (Arrival.pong 0)
        unanswered := 0 })
  | resink {sink : Sink} (hsent : sink.sent = s.peer.sink.sent) :
      Touched now s none (s.mapPeer fun peer => { peer with sink })
  /-- The limit of a recording expires. -/
  | lapse {deadline : Instant} {job : Job} {work : Recording} {wake : Option Instant}
      (hreader : s.peer.reader = .handling deadline job (.recording work wake))
      (hlate : job.limit.expires ≤ now) :
      Touched now s none
        (s.setReader (.handling deadline job (.finished (.error job.limit.failure))))

end Session

/-- How much time passes by what happens. -/
def Happening.elapsed : Happening → Nat
  | .pass nanos => nanos
  | _ => 0

/-- What can happen to a session. -/
inductive Session.Step (settings : Settings) (now : Instant) (h : Handle) (s : Session) :
    Happening → Option Remover → List LogEvent → Session → Prop
  | rest (happening : Happening) : Step settings now h s happening none [] s
  | read {cancelFirst : Bool} {removal : Option Remover} {lines : List LogEvent} {t : Session}
      (hreads : s.Reads settings now cancelFirst removal lines t) :
      Step settings now h s (.read h cancelFirst) removal lines t
  | write {removal : Option Remover} {lines : List LogEvent} {t : Session}
      (hwrites : s.Writes settings now removal lines t) :
      Step settings now h s (.write h) removal lines t
  | touch {happening : Happening} {removal : Option Remover} {t : Session}
      (hnow : happening.elapsed = 0) (htouched : s.Touched now removal t) :
      Step settings now h s happening removal [] t

end ListingHub
