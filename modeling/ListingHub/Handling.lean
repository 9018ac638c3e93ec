import ListingHub.Broadcast
import ListingHub.Recording
import ListingHub.Router

/-!
# Handling an event

An event is recorded within a limit of time and then pushed to the open connections of its
recipients. A step of `Handling` is the code between two points where something else may happen;
`Service.handle` does all of it with nothing in between.
-/

namespace ListingHub

/-- What handles the events of a type. -/
inductive Handler where
  /-- Records events and pushes them to their recipients. -/
  | dispatcher
  /-- Notes every event it is given, and then fails if it was given a reason. -/
  | probe (tag : String) (fails : Option String)
  deriving DecidableEq, Repr

/-- An event that was given to a probe. -/
structure Call where
  tag : String
  eventType : String
  user : UserId
  deriving DecidableEq, Repr

/-- The text of a call. -/
def Call.text (call : Call) : String :=
  call.tag ++ ":" ++ call.eventType ++ ":" ++ call.user.text

/-- The switchboard, the router and its handlers, the store and what goes wrong with it. -/
structure Service where
  board : Switchboard
  router : Router Handler
  /-- What was given to probes, oldest first. -/
  calls : List Call
  store : Store
  faults : Faults
  /-- The time on the wall when the clock of the service showed zero. -/
  start : Timestamp
  /-- How long the recording of an event may take. -/
  handlerTimeout : Duration

/-- An event that was sent over a connection. -/
structure Job where
  source : Handle
  user : UserId
  eventType : String
  event : Event
  limit : Limit

/-- How far the handling of an event is. -/
inductive Handling where
  /-- The event is being recorded; the pause before the next step ends at `wake`, if it began. -/
  | recording (work : Recording) (wake : Option Instant)
  /-- The event is pushed to its recipients. -/
  | fanningOut (recipients : List UserId) (broadcast : Broadcast)
  | finished (outcome : Except Failure Unit)

namespace Job

/-- The job of an envelope received over a connection. -/
def ofEnvelope (service : Service) (now : Instant) (source : Handle) (user : UserId)
    (envelope : Envelope) : Except Failure Job :=
  (Event.ofEnvelope envelope).map fun event =>
    { source, user, eventType := envelope.eventType, event
      limit := ⟨now + service.handlerTimeout.toNanos, .handlerTimeout service.handlerTimeout⟩ }

/-- The message for the recipients. -/
def message (job : Job) (recipients : List UserId) : Message where
  wanted := fun user => recipients.contains user
  envelope := .notification job.event.kind job.event.message

/-- The log line about a finished push. -/
def dispatched (job : Job) (recipients : List UserId) (delivered : Nat) : Entry :=
  (some job.source,
    .dispatched job.user job.eventType job.event.listing recipients.length delivered)

/-- What follows a step of recording. -/
def afterRecording : Recording → Handling
  | .finished (.ok []) => .finished (.ok ())
  | .finished (.ok recipients) => .fanningOut recipients .choosing
  | .finished (.error failure) => .finished (.error failure)
  | work => .recording work none

/-- A step of recording, without the pause before it. -/
def record (job : Job) (service : Service) (now : Instant) (work : Recording) :
    Handling × Service × List Entry :=
  let (work, store) := work.step service.faults job.event (service.start.later now) service.store
  (afterRecording work, { service with store }, [])

/-- The next step; `none` while a pause lasts, or when the handling has ended. The end of a pause
comes before the end of the limit. -/
def step (job : Job) (service : Service) (now : Instant) :
    Handling → Option (Handling × Service × List Entry)
  | .recording work none =>
      let delay := work.delay service.faults job.event
      if delay = 0 then some (job.record service now work)
      else some (.recording work (some (now + delay)), service, [])
  | .recording work (some wake) =>
      if wake ≤ now then some (job.record service now work)
      else if job.limit.expires ≤ now then
        some (.finished (.error job.limit.failure), service, [])
      else none
  | .fanningOut recipients (.finished delivered) =>
      some (.finished (.ok ()), service, [job.dispatched recipients delivered])
  | .fanningOut recipients broadcast =>
      let (broadcast, board, log) := broadcast.step (job.message recipients) service.board
      some (.fanningOut recipients broadcast, { service with board }, log)
  | .finished _ => none

end Job

namespace Service

/-- Carries out a job from `now` on, with nothing in between. -/
def handle (service : Service) (job : Job) (now : Instant) :
    Except Failure Unit × Service × List Entry :=
  match service.faults.record job.event service.start (some job.limit) now service.store with
  | (.error failure, store) => (.error failure, { service with store }, [])
  | (.ok [], store) => (.ok (), { service with store }, [])
  | (.ok recipients, store) =>
      let (delivered, board, log) := service.board.broadcast (job.message recipients)
      (.ok (), { service with store, board }, log ++ [job.dispatched recipients delivered])

/-- A service without connections, whose router is empty. -/
def new (policy : OverflowPolicy) (handlerTimeout : Duration) (store : Store) (faults : Faults)
    (start : Timestamp) : Service :=
  { board := .empty policy, router := .empty, calls := [], store, faults, start, handlerTimeout }

/-- Registers the dispatcher for every kind of notification. -/
def registerDispatcher (service : Service) : Service :=
  { service with
    router := NotificationKind.all.foldl
      (fun router kind => (router.register kind.name .dispatcher).2) service.router }

/-- Gives an event to a probe. -/
def probe (service : Service) (tag : String) (fails : Option String) (user : UserId)
    (envelope : Envelope) : Except Failure Unit × Service :=
  (match fails with
    | some reason => .error (.internal reason)
    | none => .ok (),
    { service with calls := service.calls ++ [⟨tag, envelope.eventType, user⟩] })

/-- Lets the dispatcher handle an envelope received over a connection, with nothing in between. -/
def dispatch (service : Service) (now : Instant) (source : Handle) (user : UserId)
    (envelope : Envelope) : Except Failure Unit × Service × List Entry :=
  match Job.ofEnvelope service now source user envelope with
  | .error failure => (.error failure, service, [])
  | .ok job => service.handle job now

/-- Lets a handler take an envelope from a connection and its user, with nothing in between. -/
def invoke (now : Instant) (handler : Handler) (envelope : Envelope) (source : Handle × UserId)
    (state : Service × List Entry) : Except Failure Unit × Service × List Entry :=
  match handler with
  | .dispatcher =>
      let (outcome, service, log) := state.1.dispatch now source.1 source.2 envelope
      (outcome, service, state.2 ++ log)
  | .probe tag fails =>
      let (outcome, service) := state.1.probe tag fails source.2 envelope
      (outcome, service, state.2)

/-- Routes an envelope received over a connection, with nothing in between. -/
def route (service : Service) (now : Instant) (source : Handle) (user : UserId)
    (envelope : Envelope) : Except Failure Unit × Service × List Entry :=
  service.router.route (invoke now) envelope (source, user) (service, [])

end Service

end ListingHub
