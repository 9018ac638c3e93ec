import ListingHub.Hub.Basic

/-!
# The write pump

Writes the envelopes of a connection's queue in their order, and a ping whenever one is due and
nothing is queued. It stops when teardown was started, which it looks for first, or when a write
fails; then the queue takes nothing more, and unless a write failed a close frame is written last.
While a write waits for the sink the pump sees nothing else.
-/

namespace ListingHub.Hub

/-- A ping this late, in nanoseconds, makes the next one a full interval away. -/
def tolerance : Instant := 5 * 1_000_000

/-- When the ping after one that was due is due. -/
def nextDue (now due interval : Instant) : Instant :=
  if due + tolerance < now then now + interval else due + interval

/-- Starts the pump of a connection. The longest interval there is takes a tenth of `2 ^ 64`
seconds, so that the clock can tell when its first ping is due for as long as it runs. -/
def startWriter (hub : Hub) (h : Handle) : Hub :=
  match hub.settings.pingInterval with
  | some interval => hub.setWriter h (.idle (hub.now + interval.toNanos))
  | none => (hub.mapBoard fun board => board.modify h Connection.dropReceiver).setWriter h .crashed

/-- The pump stops; the queue takes nothing more. -/
def stopWriter (hub : Hub) (h : Handle) (writer : WritePump) : Hub :=
  (hub.mapBoard fun board => board.modify h Connection.shutReceiver).setWriter h writer

/-- A frame was written. Over a WebSocket the far end has to answer a ping. -/
def written (hub : Hub) (h : Handle) (sink : Sink) (frame : Frame) : Hub :=
  hub.modifyPeer h fun peer =>
    let pings := match peer.transport, frame with
      | .webSocket, .ping => 1
      | _, _ => 0
    { peer with sink, unanswered := peer.unanswered + pings }

/-- What an idle pump does: it stops when it is told to, else writes what is queued, else a ping
when one is due. -/
def idleStep (hub : Hub) (h : Handle) (c : Connection) (due : Instant) : Option Hub :=
  if c.cancelled then some (hub.stopWriter h (.closing .cancelled))
  else
    match hub.service.board.receive h with
    | (.envelope envelope, board) =>
        some ((hub.mapBoard fun _ => board).setWriter h (.sending (.text envelope.encode) due))
    | (.disconnected, _) | (.dropped, _) => some (hub.stopWriter h (.closing .queueClosed))
    | (.empty, _) =>
        if due ≤ hub.now then
          let interval := (hub.settings.pingInterval.map Duration.toNanos).getD 0
          some (hub.setWriter h (.sending .ping (nextDue hub.now due interval)))
        else none

/-- The next step of the write pump of a peer; `none` while it waits. -/
def writeStep (h : Handle) (hub : Hub) : Option Hub :=
  match hub.peers[h]?, hub.connection? h with
  | some peer, some c =>
      match peer.writer with
      | .starting =>
          match peer.reader with
          | .joining => none
          | _ => some (hub.startWriter h)
      | .idle due => hub.idleStep h c due
      | .sending frame due =>
          (peer.sink.write? frame).map fun
            | .ok sink => (hub.written h sink frame).setWriter h (.idle due)
            | .error reason => hub.stopWriter h (.leaving (.transport reason))
      | .closing exit =>
          (peer.sink.write? .close).map fun
            | .ok sink => (hub.written h sink .close).setWriter h (.leaving exit)
            | .error _ => hub.setWriter h (.leaving exit)
      | .leaving exit =>
          some (((hub.teardown h exit).mapBoard fun board => board.modify h Connection.dropReceiver
            ).setWriter h (.done exit))
      | .done _ | .crashed => none
  | _, _ => none

end ListingHub.Hub
