import ListingHub.Envelope

/-!
# Connections

One live connection: its owner, its lifecycle and the queue of envelopes that wait to be written.
The queue has a sending half, which the connection holds until it is closed, and a receiving half,
which belongs to the write pump. The lifecycle only moves forward.
-/

namespace ListingHub

/-- The lifecycle of a connection. -/
inductive Lifecycle where
  /-- Not registered yet. -/
  | connecting
  /-- Registered and reachable. -/
  | opened
  /-- Taken off the registry; its pumps are leaving. -/
  | closing
  /-- Both pumps have stopped. -/
  | closed
  deriving DecidableEq, Repr

/-- The name of a stage of the lifecycle. -/
def Lifecycle.name : Lifecycle → String
  | connecting => "connecting"
  | opened => "open"
  | closing => "closing"
  | closed => "closed"

/-- The receiving half of a queue. -/
inductive Receiver where
  | alive
  /-- Takes nothing new, but what is queued can still be received. -/
  | shut
  /-- Gone, and the queued envelopes with it. -/
  | dropped
  deriving DecidableEq, Repr

/-- What became of an envelope offered to a connection. -/
inductive Delivery where
  | queued
  | full
  | closed
  deriving DecidableEq, Repr

/-- The name of an outcome. -/
def Delivery.name : Delivery → String
  | queued => "queued"
  | full => "full"
  | closed => "closed"

/-- What the receiving half finds. -/
inductive Receipt where
  | envelope (envelope : Envelope)
  /-- Nothing is queued. -/
  | empty
  /-- Nothing is queued and nothing will be. -/
  | disconnected
  /-- The receiving half is gone. -/
  | dropped

/-- A live connection. -/
structure Connection where
  identity : Identity
  capacity : Nat
  lifecycle : Lifecycle
  /-- The pumps were told to leave. -/
  cancelled : Bool
  /-- The sending half of the queue is still held. -/
  senderHeld : Bool
  receiver : Receiver
  /-- What waits to be written, oldest first. -/
  queue : List Envelope

namespace Connection

/-- A new connection, whose queue holds at least one envelope. Queues of `2 ^ 61` envelopes and
more, which the runtime refuses to make, are made here like any other. -/
def new (identity : Identity) (capacity : Nat) : Connection where
  identity := identity
  capacity := max capacity 1
  lifecycle := .connecting
  cancelled := false
  senderHeld := true
  receiver := .alive
  queue := []

/-- The owner. -/
def user (c : Connection) : UserId := c.identity.userId

/-- Registered and reachable. -/
def isOpen (c : Connection) : Bool := c.lifecycle == .opened

/-- What would become of an envelope offered now. -/
def offer (c : Connection) : Delivery :=
  if !c.senderHeld || !c.isOpen || c.receiver != .alive then .closed
  else if c.capacity ≤ c.queue.length then .full
  else .queued

/-- Offers an envelope without waiting. -/
def deliver (envelope : Envelope) (c : Connection) : Delivery × Connection :=
  match c.offer with
  | .queued => (.queued, { c with queue := c.queue ++ [envelope] })
  | other => (other, c)

/-- An envelope is queued on an open connection whose receiving half lives and has room. -/
theorem offer_eq_queued_iff (c : Connection) :
    c.offer = .queued ↔
      c.senderHeld = true ∧ c.isOpen = true ∧ c.receiver = .alive ∧
        c.queue.length < c.capacity := by
  cases hs : c.senderHeld <;> cases ho : c.isOpen <;> cases hr : c.receiver <;>
    simp [offer, hs, ho, hr]

theorem deliver_of_queued {c : Connection} (envelope : Envelope) (h : c.offer = .queued) :
    c.deliver envelope = (.queued, { c with queue := c.queue ++ [envelope] }) := by
  simp [deliver, h]

/-- An envelope that is not queued leaves the connection as it was. -/
theorem deliver_of_not_queued {c : Connection} (envelope : Envelope) (h : c.offer ≠ .queued) :
    c.deliver envelope = (c.offer, c) := by
  cases hc : c.offer <;> simp_all [deliver]

/-- Receives the oldest envelope. -/
def receive (c : Connection) : Receipt × Connection :=
  match c.receiver, c.queue with
  | .dropped, _ => (.dropped, c)
  | _, envelope :: rest => (.envelope envelope, { c with queue := rest })
  | .shut, [] => (.disconnected, c)
  | .alive, [] => (if c.senderHeld then .empty else .disconnected, c)

/-- Opens a connection that is connecting; any other stays as it is. -/
def markOpen (c : Connection) : Bool × Connection :=
  if c.lifecycle = .connecting then (true, { c with lifecycle := .opened }) else (false, c)

/-- Starts closing, tells the pumps to leave and lets go of the sending half. The flag tells whether
closing starts with this call. -/
def beginClose (c : Connection) : Bool × Connection :=
  match c.lifecycle with
  | .connecting | .opened =>
      (true, { c with lifecycle := .closing, cancelled := true, senderHeld := false })
  | .closing | .closed => (false, { c with cancelled := true, senderHeld := false })

theorem cancelled_beginClose (c : Connection) : c.beginClose.2.cancelled = true := by
  unfold beginClose
  split <;> rfl

/-- Ends the lifecycle. -/
def markClosed (c : Connection) : Connection :=
  { c with lifecycle := .closed, cancelled := true, senderHeld := false }

/-- Shuts the receiving half. -/
def shutReceiver (c : Connection) : Connection :=
  { c with receiver := if c.receiver = .dropped then .dropped else .shut }

/-- Drops the receiving half and what is queued. -/
def dropReceiver (c : Connection) : Connection :=
  { c with receiver := .dropped, queue := [] }

end Connection

end ListingHub
