import ListingHub.Connection
import ListingHub.Log

/-!
# The switchboard

All connections ever made and the set of those that are registered. A connection is named by its
place in the order of making. Registration and removal keep the lifecycle in step: `add` opens,
`remove` closes.
-/

namespace ListingHub

/-- A connection, named by the number of connections made before it. -/
abbrev Handle := Nat

/-- A line of the log and the connection it is about. -/
abbrev Entry := Option Handle × LogEvent

/-- The connections and which of them are registered, each once. -/
structure Switchboard where
  policy : OverflowPolicy
  connections : List Connection
  members : List Handle
  members_nodup : members.Nodup
  members_lt : ∀ h ∈ members, h < connections.length

namespace Switchboard

/-- No connection was ever made. -/
def empty (policy : OverflowPolicy) : Switchboard where
  policy := policy
  connections := []
  members := []
  members_nodup := .nil
  members_lt := by simp

/-- The connection of a name. -/
def get? (board : Switchboard) (h : Handle) : Option Connection :=
  board.connections[h]?

/-- Changes a connection. -/
def modify (board : Switchboard) (h : Handle) (f : Connection → Connection) : Switchboard :=
  { board with
    connections := board.connections.modify h f
    members_lt := by simpa using board.members_lt }

@[simp]
theorem get?_modify_self (board : Switchboard) (h : Handle) (f : Connection → Connection) :
    (board.modify h f).get? h = (board.get? h).map f := by
  simp [modify, get?]

theorem get?_modify_of_ne (board : Switchboard) {h other : Handle} (f : Connection → Connection)
    (hne : other ≠ h) : (board.modify h f).get? other = board.get? other := by
  simp [modify, get?, Ne.symm hne]

/-- Makes a connection that is not registered yet. -/
def connect (board : Switchboard) (identity : Identity) (capacity : Nat) : Handle × Switchboard :=
  (board.connections.length,
    { board with
      connections := board.connections ++ [.new identity capacity]
      members_lt := fun h hin => by
        rw [List.length_append]
        exact Nat.lt_add_right _ (board.members_lt h hin) })

/-- A connection is registered. -/
def contains (board : Switchboard) (h : Handle) : Bool :=
  board.members.contains h

/-- How many connections are registered. -/
def size (board : Switchboard) : Nat :=
  board.members.length

/-- No connection is registered. -/
def isEmpty (board : Switchboard) : Bool :=
  board.members.isEmpty

/-- A connection is put on the list of those that are registered. -/
def enroll (board : Switchboard) (h : Handle) (hout : h ∉ board.members)
    (hmade : h < board.connections.length) : Switchboard :=
  { board with
    members := board.members ++ [h]
    members_nodup := List.nodup_append.mpr ⟨board.members_nodup, by simp, by
      rintro g hin _ hg rfl
      exact hout (List.mem_singleton.mp hg ▸ hin)⟩
    members_lt := fun g hin => by
      rcases List.mem_append.mp hin with hold | hnew
      · exact board.members_lt g hold
      · exact List.mem_singleton.mp hnew ▸ hmade }

/-- Registers a connection and opens it; `false` if it is registered already. -/
def add (board : Switchboard) (h : Handle) : Bool × Switchboard :=
  if hout : h ∉ board.members ∧ h < board.connections.length then
    (true, (board.enroll h hout.1 hout.2).modify h fun c => c.markOpen.2)
  else (false, board)

/-- Starts closing a connection, registered or not. -/
def beginClose (board : Switchboard) (h : Handle) : Switchboard :=
  board.modify h fun c => c.beginClose.2

/-- Strikes a connection off the list of those that are registered. -/
def strike (board : Switchboard) (h : Handle) : Switchboard :=
  { board with
    members := board.members.erase h
    members_nodup := board.members_nodup.erase h
    members_lt := fun g hin => board.members_lt g (List.mem_of_mem_erase hin) }

/-- Takes a connection off and starts closing it; `false` if it is not registered. -/
def remove (board : Switchboard) (h : Handle) : Bool × Switchboard :=
  if board.contains h then (true, (board.strike h).beginClose h) else (false, board)

theorem members_remove (board : Switchboard) (h : Handle) :
    (board.remove h).2.members = board.members.erase h := by
  unfold remove contains
  split
  · rfl
  · next hout => rw [List.erase_of_not_mem (by simpa using hout)]

/-- Takes all connections off at once, without closing them. -/
def drain (board : Switchboard) : List Handle × Switchboard :=
  (board.members, { board with members := [], members_nodup := .nil, members_lt := by simp })

/-- Takes all connections off, closes them and counts them. -/
def closeAll (board : Switchboard) : Nat × Switchboard :=
  let (drained, board) := board.drain
  (drained.length, drained.foldl beginClose board)

/-- The registered connections of the users that are wanted. -/
def snapshot (board : Switchboard) (wanted : UserId → Bool) : List Handle :=
  board.members.filter fun h => (board.get? h).any fun c => wanted c.user

/-- How many connections of a user are registered. -/
def connectionsFor (board : Switchboard) (user : UserId) : Nat :=
  (board.snapshot (· == user)).length

/-- Offers an envelope to a connection. -/
def deliver (board : Switchboard) (envelope : Envelope) (h : Handle) : Delivery × Switchboard :=
  match board.get? h with
  | none => (.closed, board)
  | some c => ((c.deliver envelope).1, board.modify h fun c => (c.deliver envelope).2)

/-- Receives from the queue of a connection. -/
def receive (board : Switchboard) (h : Handle) : Receipt × Switchboard :=
  match board.get? h with
  | none => (.dropped, board)
  | some c => (c.receive.1, board.modify h fun c => c.receive.2)

end Switchboard

end ListingHub
