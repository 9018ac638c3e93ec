import ListingHub.Http.App
import ListingHub.Hub.Schedule

/-!
# Runs of the hub

What can happen to a hub in one piece: a step of one of its tasks, or something from outside. A run
is any order of happenings; what the scheduler does is one of them. A task that has to wait takes no
step, and the hub stays as it is.
-/

namespace ListingHub

/-- Something that happens to a hub in one piece. -/
inductive Happening where
  /-- A peer is let in. -/
  | accept (identity : Identity) (transport : Transport)
  /-- A WebSocket handshake. -/
  | upgrade (request : Http.Request)
  | request (request : Http.Request)
  | arrive (h : Handle) (arrival : Arrival)
  /-- The sink of a peer is blocked or takes frames again. -/
  | block (h : Handle) (blocked : Bool)
  | breakSink (h : Handle) (reason : String)
  /-- A step of a read pump. -/
  | read (h : Handle) (cancelFirst : Bool)
  /-- A read pump without allowance finds its limit expired. -/
  | lapse (h : Handle)
  /-- A step of a write pump. -/
  | write (h : Handle)
  /-- A step of the far end of a peer. -/
  | answer (h : Handle)
  | closeAll
  | remove (h : Handle)
  /-- Time passes. -/
  | pass (nanos : Nat)
  | faults (faults : Faults)
  | setAgent (listing : ListingId) (agent : UserId)
  | addFavorite (user : UserId) (listing : ListingId)
  | addSession (token : String) (identity : Identity)
  | create (draft : Draft) (now : Timestamp)

namespace Hub

/-- A hub whose events go to the handlers of another router. -/
def withRouter (hub : Hub) (router : Router Handler) : Hub :=
  { hub with service := { hub.service with router } }

/-- Changes the store. -/
def mapStore (hub : Hub) (f : Store → Store) : Hub :=
  { hub with service := { hub.service with store := f hub.service.store } }

/-- The hub after something happened. -/
def after (hub : Hub) : Happening → Hub
  | .accept identity transport => (hub.accept identity transport).2
  | .upgrade request => (Http.upgrade request hub).2
  | .request request => (Http.respond request hub).2
  | .arrive h arrival => (hub.arrive h arrival).2
  | .block h blocked => hub.modifySink h fun sink => { sink with blocked }
  | .breakSink h reason => hub.modifySink h fun sink => { sink with broken := some reason }
  | .read h cancelFirst => (readStep cancelFirst h hub).getD hub
  | .lapse h => (Hub.lapse h hub).getD hub
  | .write h => (writeStep h hub).getD hub
  | .answer h => (answerStep h hub).getD hub
  | .closeAll => hub.closeAll.2
  | .remove h => hub.mapBoard fun board => (board.remove h).2
  | .pass nanos => { hub with now := hub.now + nanos }
  | .faults faults => { hub with service := { hub.service with faults } }
  | .setAgent listing agent => hub.mapStore fun store => store.setAgent listing agent
  | .addFavorite user listing => hub.mapStore fun store => store.addFavorite user listing
  | .addSession token identity => hub.mapStore fun store => store.addSession token identity
  | .create draft now => hub.mapStore fun store => (store.create draft now).2

/-- The hub after a run. -/
def run (hub : Hub) (happenings : List Happening) : Hub :=
  happenings.foldl after hub

end Hub

end ListingHub
