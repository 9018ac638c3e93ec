import ListingHub.Hub.Basic

/-!
# The read pump

Takes what arrives from a peer until something ends the connection: the peer closes it, the
transport fails, a frame is too large, no pong comes in time, or teardown was started elsewhere. The
envelope of a data frame is routed and handled before the next arrival is taken. Only a pong that is
taken moves the deadline. A deadline that the clock cannot tell ends the task that serves the peer
without any teardown.
-/

namespace ListingHub.Hub

/-- Registers the connection of a peer and starts its pumps. -/
def join (hub : Hub) (h : Handle) (c : Connection) : Hub :=
  let joined := hub.mapBoard fun board => (board.add h).2
  (joined.log [(some h, .opened c.identity)]).setReader h
    (.awaiting hub.settings hub.now)

/-- The handling of an event failed, which the connection survives. -/
def notProcessed (hub : Hub) (h : Handle) (user : UserId) (eventType : String)
    (failure : Failure) : Hub :=
  hub.log [(some h, .notProcessed user eventType failure)]

/-- The outcome of a handler on its connection. -/
def conclude (hub : Hub) (h : Handle) (user : UserId) (eventType : String) :
    Except Failure Unit → Hub
  | .ok () => hub
  | .error failure => hub.notProcessed h user eventType failure

/-- Gives an envelope to its handler. A job of the dispatcher is only begun here. -/
def route (hub : Hub) (h : Handle) (user : UserId) (deadline : Instant) (envelope : Envelope) :
    Hub :=
  let waiting := hub.setReader h (.waiting deadline)
  match hub.service.router.find? envelope.eventType with
  | none => waiting.notProcessed h user envelope.eventType (.unknownEventType envelope.eventType)
  | some (.probe tag fails) =>
      let (outcome, service) := hub.service.probe tag fails user envelope
      ({ waiting with service }).conclude h user envelope.eventType outcome
  | some .dispatcher =>
      match Job.ofEnvelope hub.service hub.now h user envelope with
      | .error failure => waiting.notProcessed h user envelope.eventType failure
      | .ok job => hub.setReader h (.handling deadline job (.recording .lookingUp none))

/-- Takes a data frame. -/
def takeData (hub : Hub) (h : Handle) (user : UserId) (deadline : Instant) (data : List UInt8) :
    Hub :=
  if hub.settings.maxFrameBytes < data.length then
    hub.setReader h (.leaving (.frameTooLarge data.length))
  else
    match Envelope.ofFrame data with
    | .error failure => (hub.log [(some h, .undecodable failure)]).setReader h (.waiting deadline)
    | .ok envelope => hub.route h user deadline envelope

/-- What a WebSocket does by itself when an arrival is taken from it: it answers a ping, and takes
nothing more after a close. -/
def answer (transport : Transport) (arrival : Arrival) (sink : Sink) : Sink :=
  match transport, arrival with
  | .webSocket, .ping size => { sink with sent := sink.sent ++ [.pong size] }
  | .webSocket, .close => { sink with broken := some afterClosing }
  | _, _ => sink

/-- Takes an arrival. -/
def take (hub : Hub) (h : Handle) (user : UserId) (deadline : Instant) : Arrival → Hub
  | .text data => hub.takeData h user deadline (Utf8.ofText data)
  | .binary data => hub.takeData h user deadline data
  | .pong _ => hub.setReader h (.awaiting hub.settings hub.now)
  | .ping _ => hub.setReader h (.waiting deadline)
  | .close | .ended => hub.setReader h (.leaving .peerClosed)
  | .failure reason => hub.setReader h (.leaving (.transport reason))

/-- What the read pump does with its peer, teardown aside: it takes what arrived first, or leaves
when the deadline has passed and nothing arrived. -/
def takeNext (hub : Hub) (h : Handle) (peer : Peer) (user : UserId) (deadline : Instant) :
    Option Hub :=
  match peer.inbox with
  | arrival :: inbox =>
      let taken := hub.modifyPeer h fun peer =>
        { peer.fetch inbox with sink := answer peer.transport arrival peer.sink }
      some (taken.take h user deadline arrival)
  | [] =>
      if deadline ≤ hub.now then some (hub.setReader h (.leaving .deadlineExceeded)) else none

/-- A step of the handling of an event. -/
def handleNext (hub : Hub) (h : Handle) (deadline : Instant) (job : Job) :
    Handling → Option Hub
  | .finished outcome =>
      some ((hub.setReader h (.waiting deadline)).conclude h job.user job.eventType outcome)
  | work =>
      (job.step hub.service hub.now work).map fun (work, service, log) =>
        (({ hub with service }).log log).setReader h (.handling deadline job work)

/-- The next step of the read pump of a peer; `none` while it waits. When teardown was started and
something else is ready too, the pump may do either, as `cancelFirst` says. -/
def readStep (cancelFirst : Bool) (h : Handle) (hub : Hub) : Option Hub :=
  match hub.peers[h]?, hub.connection? h with
  | some peer, some c =>
      match peer.reader with
      | .joining => some (hub.join h c)
      | .waiting deadline =>
          let next := hub.takeNext h peer c.user deadline
          if c.cancelled && (cancelFirst || next.isNone) then
            some (hub.setReader h (.leaving .cancelled))
          else next
      | .handling deadline job work => hub.handleNext h deadline job work
      | .leaving exit => some ((hub.teardown h exit).setReader h (.draining exit))
      | .draining exit =>
          peer.writer.ending?.map fun write =>
            ((hub.mapBoard fun board => board.modify h Connection.markClosed).log
              [(some h, .closed c.user exit write)]).setReader h (.done exit)
      | .done _ | .crashed => none
  | _, _ => none

end ListingHub.Hub
