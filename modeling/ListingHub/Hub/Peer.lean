import ListingHub.Handling

/-!
# Peers

The two halves of a peer's socket and the two pumps that serve it. What the peer sends waits in its
inbox; what is written to it goes into its sink, which may be blocked or broken. A WebSocket adds a
protocol of its own underneath: it limits frames, answers pings at both ends and ends with a
handshake.
-/

namespace ListingHub

/-- What the reading half of a socket yields. -/
inductive Arrival where
  | text (data : String)
  | binary (data : List UInt8)
  | ping (size : Nat)
  | pong (size : Nat)
  | close
  /-- The transport failed. -/
  | failure (reason : String)
  /-- Nothing more will come. -/
  | ended
  deriving DecidableEq, Repr

/-- What is written to a peer. -/
inductive Frame where
  | text (data : String)
  | ping
  | pong (size : Nat)
  | close
  deriving DecidableEq, Repr

/-- The writing half of a socket and what was written. -/
structure Sink where
  blocked : Bool
  /-- Why every write fails. -/
  broken : Option String
  sent : List Frame
  deriving DecidableEq, Repr

namespace Sink

/-- A sink that takes everything. -/
def ready : Sink := ⟨false, none, []⟩

/-- Writes a frame; `none` while the sink is blocked. A broken sink fails even then. -/
def write? (sink : Sink) (frame : Frame) : Option (Except String Sink) :=
  match sink.broken with
  | some reason => some (.error reason)
  | none =>
      if sink.blocked then none else some (.ok { sink with sent := sink.sent ++ [frame] })

end Sink

/-- How a peer is connected. -/
inductive Transport where
  | direct
  | webSocket
  deriving DecidableEq, Repr

/-- How far the read pump is. -/
inductive ReadPump where
  /-- The connection is not registered yet. -/
  | joining
  /-- Waits for the peer until the deadline. -/
  | waiting (deadline : Instant)
  /-- Handles an event; the deadline goes on. -/
  | handling (deadline : Instant) (job : Job) (work : Handling)
  /-- Has stopped and has yet to tear the connection down. -/
  | leaving (exit : Exit)
  /-- Waits for the write pump. -/
  | draining (exit : Exit)
  | done (exit : Exit)
  /-- The clock could not tell its deadline, and the task that served the peer is gone. -/
  | crashed

/-- The read pump that waits for a pong from now on. Where the clock cannot tell the deadline the
task ends at once; nobody takes its connection off the registry for it. -/
def ReadPump.awaiting (settings : Settings) (now : Instant) : ReadPump :=
  match now.after? settings.pongWait with
  | some deadline => waiting deadline
  | none => crashed

/-- How far the write pump is. -/
inductive WritePump where
  /-- Not running yet. -/
  | starting
  /-- Waits for an envelope until the next ping is due. -/
  | idle (due : Instant)
  /-- Writes a frame; the next ping is due afterwards. -/
  | sending (frame : Frame) (due : Instant)
  /-- Has stopped and writes a close frame. -/
  | closing (exit : Exit)
  /-- Has yet to tear the connection down. -/
  | leaving (exit : Exit)
  | done (exit : Exit)
  /-- Could not start for want of a ping interval. -/
  | crashed
  deriving DecidableEq, Repr

/-- How the write pump ended, if it did. The text of a crash has no number for its task here. -/
def WritePump.ending? : WritePump → Option String
  | .done exit => some exit.text
  | .crashed => some ("write pump failed: task panicked with message " ++
      "\"overflow when multiplying duration by scalar\"")
  | _ => none

/-- A peer and its pumps. -/
structure Peer where
  transport : Transport
  inbox : List Arrival
  /-- How many arrivals at the front of the inbox were fetched off the transport already. -/
  fetched : Nat
  sink : Sink
  /-- How many pings were written that the peer has yet to answer. -/
  unanswered : Nat
  reader : ReadPump
  writer : WritePump

namespace Peer

/-- A peer whose connection is about to be registered. -/
def new (transport : Transport) : Peer :=
  ⟨transport, [], 0, .ready, 0, .joining, .starting⟩

/-- The reading half is gone. -/
def isGone (peer : Peer) : Bool :=
  match peer.reader with
  | .draining _ | .done _ | .crashed => true
  | _ => false

/-- The peer has sent its last: the end of its stream or, over a WebSocket, a close. A close that
was written to it over a WebSocket ends its stream too. -/
def hasEnded (peer : Peer) : Bool :=
  peer.inbox.contains .ended ||
    peer.transport == .webSocket && (peer.inbox.contains .close || peer.sink.sent.contains .close)

/-- The peer without the arrival at the front of its inbox, which leaves `inbox`. What waits on a
transport is fetched all at once. -/
def fetch (peer : Peer) (inbox : List Arrival) : Peer :=
  { peer with
    inbox
    fetched := if peer.fetched = 0 then inbox.length else peer.fetched - 1 }

/-- Both pumps have stopped and the socket is dropped. -/
def isServed (peer : Peer) : Bool :=
  match peer.reader with
  | .done _ => true
  | _ => false

end Peer

/-- The size of what a frame carries, and whether it is a control frame, if it carries anything. -/
def Arrival.load? : Arrival → Option (Nat × Bool)
  | text data => some (data.utf8ByteSize, false)
  | binary data => some (data.length, false)
  | ping size | pong size => some (size, true)
  | close | failure _ | ended => none

/-- What a WebSocket makes of a frame: one above the limit, or a control frame of more than 125
bytes, is a failure of the transport. -/
def Arrival.overWebSocket (maxFrameBytes : Nat) (arrival : Arrival) : Arrival :=
  match arrival.load? with
  | none => arrival
  | some (size, control) =>
      if maxFrameBytes < size then
        .failure ("Space limit exceeded: Message too long: " ++ toString size ++ " > " ++
          toString maxFrameBytes)
      else if control ∧ 125 < size then
        .failure "WebSocket protocol error: Control frame too big (payload must be 125 bytes or less)"
      else arrival

/-- Why nothing can be written over a WebSocket whose peer has closed it. -/
def afterClosing : String :=
  "WebSocket protocol error: Sending after closing is not allowed"

end ListingHub
