import ListingHub.Hub.Basic

/-!
# Giving way

A pump that has a lot to do gives way to the others: each time it runs it has an allowance, from
which every access to what it shares with others takes something. A pump without allowance stops
before the next step that needs any, and goes on with a new allowance after all the others.
-/

namespace ListingHub

/-- What a pump may use each time it runs. -/
def allowance : Nat := 128

/-- What a step takes from the allowance. -/
inductive Toll where
  /-- The step needs no allowance. -/
  | free
  /-- The step takes so much, and is not begun without any allowance. -/
  | units (count : Nat)
  deriving DecidableEq, Repr

namespace Toll

/-- A pump with this much left does not begin the step. -/
def stops : Toll → Nat → Bool
  | free, _ => false
  | units _, left => left == 0

/-- What is left after the step. -/
def pay : Toll → Nat → Nat
  | free, left => left
  | units count, left => left - count

end Toll

/-- The store is asked once for the recipients and once for each row. A fault comes before that. -/
def Recording.accesses (faults : Faults) (event : Event) : Recording → Nat
  | .lookingUp => if (faults.lookupFails event.listing).isSome then 0 else 1
  | .storing _ (user :: _) => if (faults.createFails user).isSome then 0 else 1
  | .storing _ [] | .finished _ => 0

namespace Handling

/-- What the next step of a handling takes. A pause takes one when it is over. -/
def toll (faults : Faults) (job : Job) : Handling → Toll
  | recording work none =>
      if work.delay faults job.event ≠ 0 then .units 0
      else
        match work.accesses faults job.event with
        | 0 => .free
        | count => .units count
  | recording work (some _) => .units (1 + work.accesses faults job.event)
  | fanningOut _ .choosing | fanningOut _ (.evicting (_ :: _) _) => .units 1
  | fanningOut .. | finished _ => .free

end Handling

namespace Peer

/-- What it takes to look at the inbox. Over a WebSocket what has arrived has to be fetched, and a
ping has to be answered. -/
def takeToll (peer : Peer) : Toll :=
  match peer.transport, peer.inbox with
  | .webSocket, arrival :: _ =>
      let fetch := if peer.fetched = 0 then 1 else 0
      match arrival with
      | .ping _ => .units (fetch + 1)
      | _ => .units fetch
  | _, _ => .units 0

/-- What it takes to write a frame. -/
def writeToll (peer : Peer) : Toll :=
  match peer.transport with
  | .direct => .free
  | .webSocket => .units 1

end Peer

namespace Hub

/-- What the next step of the read pump of a peer takes. -/
def readToll (h : Handle) (hub : Hub) : Toll :=
  match hub.peers[h]? with
  | none => .free
  | some peer =>
      match peer.reader with
      | .waiting _ => peer.takeToll
      | .handling _ job work => work.toll hub.service.faults job
      | .joining | .leaving _ | .draining _ => .units 1
      | .done _ | .crashed => .free

/-- What the next step of the write pump of a peer takes. -/
def writeToll (h : Handle) (hub : Hub) : Toll :=
  match hub.peers[h]?, hub.connection? h with
  | some peer, some c =>
      match peer.writer with
      | .idle _ => .units (if c.cancelled then 0 else 1)
      | .sending .. | .closing _ => peer.writeToll
      | .leaving _ => .units 1
      | .starting | .done _ | .crashed => .free
  | _, _ => .free

/-- What a read pump does instead of giving way: a recording whose limit has expired ends. -/
def lapse (h : Handle) (hub : Hub) : Option Hub :=
  match hub.peers[h]?.map Peer.reader with
  | some (.handling deadline job (.recording ..)) =>
      if job.limit.expires ≤ hub.now then
        some (hub.setReader h (.handling deadline job (.finished (.error job.limit.failure))))
      else none
  | _ => none

end Hub

end ListingHub
