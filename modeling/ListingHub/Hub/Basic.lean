import ListingHub.Hub.Peer

/-!
# The hub

The service with its peers, its clock and its log. The peer of a connection stands at the place of
the connection on the switchboard.
-/

namespace ListingHub

/-- The service and everybody who is connected to it. -/
structure Hub where
  service : Service
  settings : Settings
  now : Instant
  peers : List Peer
  /-- The log, oldest line first. -/
  journal : List Entry

namespace Hub

/-- A hub without peers whose router knows the dispatcher. -/
def new (settings : Settings) (handlerTimeout : Duration) (store : Store) (faults : Faults)
    (start : Timestamp) : Hub where
  service :=
    (Service.new settings.overflowPolicy handlerTimeout store faults start).registerDispatcher
  settings := settings
  now := 0
  peers := []
  journal := []

/-- Adds lines to the log. -/
def log (hub : Hub) (entries : List Entry) : Hub :=
  { hub with journal := hub.journal ++ entries }

/-- The connection of a peer. -/
def connection? (hub : Hub) (h : Handle) : Option Connection :=
  hub.service.board.get? h

/-- Changes the switchboard. -/
def mapBoard (hub : Hub) (f : Switchboard → Switchboard) : Hub :=
  { hub with service := { hub.service with board := f hub.service.board } }

/-- Changes a peer. -/
def modifyPeer (hub : Hub) (h : Handle) (f : Peer → Peer) : Hub :=
  { hub with peers := hub.peers.modify h f }

/-- Moves the read pump of a peer. -/
def setReader (hub : Hub) (h : Handle) (reader : ReadPump) : Hub :=
  hub.modifyPeer h fun peer => { peer with reader }

/-- Moves the write pump of a peer. -/
def setWriter (hub : Hub) (h : Handle) (writer : WritePump) : Hub :=
  hub.modifyPeer h fun peer => { peer with writer }

/-- Lets a peer in. Its connection is made and will be registered by its read pump. -/
def accept (hub : Hub) (identity : Identity) (transport : Transport) : Handle × Hub :=
  let (h, board) := hub.service.board.connect identity hub.settings.outboundCapacity
  (h, { hub with
    service := { hub.service with board }
    peers := hub.peers ++ [.new transport] })

/-- Something arrives from a peer; `false` if nobody reads it any more or the peer can send nothing
more. -/
def arrive (hub : Hub) (h : Handle) (arrival : Arrival) : Bool × Hub :=
  match hub.peers[h]? with
  | none => (false, hub)
  | some peer =>
      if peer.isGone || peer.hasEnded then (false, hub)
      else
        let arrival := match peer.transport with
          | .direct => arrival
          | .webSocket => arrival.overWebSocket hub.settings.maxFrameBytes
        (true, hub.modifyPeer h fun peer => { peer with inbox := peer.inbox ++ [arrival] })

/-- The next step of the far end of a peer: over a WebSocket it answers the pings that were written
to it. -/
def answerStep (h : Handle) (hub : Hub) : Option Hub :=
  match hub.peers[h]? with
  | none => none
  | some peer =>
      if peer.unanswered = 0 then none
      else
        let pongs := List.replicate peer.unanswered (Arrival.pong 0)
        some (hub.modifyPeer h fun peer =>
          { peer with inbox := peer.inbox ++ pongs, unanswered := 0 })

/-- Changes the sink of a peer. -/
def modifySink (hub : Hub) (h : Handle) (f : Sink → Sink) : Hub :=
  hub.modifyPeer h fun peer => { peer with sink := f peer.sink }

/-- Takes all connections off the switchboard and closes them. -/
def closeAll (hub : Hub) : Nat × Hub :=
  let (count, board) := hub.service.board.closeAll
  (count, { hub with service := { hub.service with board } })

/-- A pump takes its connection off the switchboard, if nobody else did, and starts closing it. Only
a pump that took it off says so in the log. -/
def teardown (hub : Hub) (h : Handle) (exit : Exit) : Hub :=
  let (removed, board) := hub.service.board.remove h
  let line := match removed, board.get? h with
    | true, some c => [(some h, LogEvent.tearingDown c.user exit)]
    | _, _ => []
  ({ hub with service := { hub.service with board := board.beginClose h } }).log line

end Hub

end ListingHub
