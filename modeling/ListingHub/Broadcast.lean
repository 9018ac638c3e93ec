import ListingHub.Switchboard

/-!
# Broadcasts

An envelope for the connections of certain users. The targets are copied once; the envelope is then
offered to one after another, and last the ones whose queues were full are removed, if the policy
says so. Between two of these steps the switchboard may change.
-/

namespace ListingHub

/-- Which users are meant and what is sent to them. -/
structure Message where
  wanted : UserId → Bool
  envelope : Envelope

/-- What the offers of a broadcast came to: how many queues took the envelope, and which connections
are to be removed. -/
structure Tally where
  delivered : Nat
  overflowed : List Handle
  deriving DecidableEq, Repr

/-- Nothing was offered yet. -/
def Tally.zero : Tally := ⟨0, []⟩

/-- How far a broadcast is. -/
inductive Broadcast where
  /-- The targets are not chosen yet. -/
  | choosing
  /-- Some targets are still to be offered the envelope. -/
  | delivering (todo : List Handle) (tally : Tally)
  /-- Some full connections are still to be removed. -/
  | evicting (todo : List Handle) (delivered : Nat)
  /-- So many queues took the envelope. -/
  | finished (delivered : Nat)
  deriving DecidableEq, Repr

namespace Switchboard

/-- The log line about a connection whose queue was full. -/
def fullEntry (board : Switchboard) (h : Handle) : List Entry :=
  ((board.get? h).map fun c => (some h, LogEvent.queueFull c.user board.policy)).toList

/-- Offers an envelope to one target of a broadcast. -/
def offer (board : Switchboard) (envelope : Envelope) (tally : Tally) (h : Handle) :
    Tally × Switchboard × List Entry :=
  match board.deliver envelope h with
  | (.queued, board) => ({ tally with delivered := tally.delivered + 1 }, board, [])
  | (.closed, board) => (tally, board, [])
  | (.full, board) =>
      match board.policy with
      | .disconnect =>
          ({ tally with overflowed := tally.overflowed ++ [h] }, board, board.fullEntry h)
      | .dropMessage => (tally, board, board.fullEntry h)

/-- Offers an envelope to targets one after another. -/
def offerAll (envelope : Envelope) :
    Tally → Switchboard → List Handle → Tally × Switchboard × List Entry
  | tally, board, [] => (tally, board, [])
  | tally, board, h :: targets =>
      let (tally, board, log) := board.offer envelope tally h
      let (tally, board, more) := offerAll envelope tally board targets
      (tally, board, log ++ more)

/-- Removes connections one after another. -/
def evict (board : Switchboard) (handles : List Handle) : Switchboard :=
  handles.foldl (fun board h => (board.remove h).2) board

/-- A broadcast to targets with nothing in between. -/
def broadcastTo (board : Switchboard) (envelope : Envelope) (targets : List Handle) :
    Nat × Switchboard × List Entry :=
  let (tally, board, log) := offerAll envelope .zero board targets
  (tally.delivered, board.evict tally.overflowed, log)

/-- A broadcast with nothing in between. -/
def broadcast (board : Switchboard) (message : Message) : Nat × Switchboard × List Entry :=
  board.broadcastTo message.envelope (board.snapshot message.wanted)

end Switchboard

namespace Broadcast

/-- The next step: choosing, one offer or one removal. -/
def step (message : Message) (board : Switchboard) :
    Broadcast → Broadcast × Switchboard × List Entry
  | choosing => (delivering (board.snapshot message.wanted) .zero, board, [])
  | delivering [] tally => (evicting tally.overflowed tally.delivered, board, [])
  | delivering (h :: todo) tally =>
      let (tally, board, log) := board.offer message.envelope tally h
      (delivering todo tally, board, log)
  | evicting [] delivered => (finished delivered, board, [])
  | evicting (h :: todo) delivered => (evicting todo delivered, (board.remove h).2, [])
  | finished delivered => (finished delivered, board, [])

end Broadcast

end ListingHub
