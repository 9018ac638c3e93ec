import ListingHub.Hub.Allowance
import ListingHub.Hub.Reading
import ListingHub.Hub.Writing

/-!
# Running the hub

Every pump is a task, and so is the far end of a peer. A task runs until it has to wait; then the
tasks that it woke queue up behind the ones that are ready. A task that gives way runs again when no
other is ready, the last of several first. The clock stands still while any task is ready and then
jumps to the next timer; of the timers of one instant the one that was set first fires first. Timers
fire at whole milliseconds.

The steps of a task are functions on the hub, so that what holds of all interleavings of steps holds
of this one.
-/

namespace ListingHub

/-- A pump of a peer or its far end. -/
inductive Task where
  | reading (h : Handle)
  | writing (h : Handle)
  | answering (h : Handle)
  deriving DecidableEq, Repr

/-- What a timer is for. -/
inductive TimerKind where
  /-- The read pump waits for a pong. It sets this timer anew whenever it waits. -/
  | deadline
  /-- A handler pauses. -/
  | wake
  /-- A handler takes too long. -/
  | limit
  /-- A ping is due. -/
  | tick
  deriving DecidableEq, Repr

/-- An instant at which a task goes on. -/
structure Timer where
  task : Task
  kind : TimerKind
  due : Instant
  deriving DecidableEq, Repr

namespace Hub

/-- The next step of a task; `none` while it waits. Teardown goes before what else is ready. -/
def step : Task → Hub → Option Hub
  | .reading h => readStep true h
  | .writing h => writeStep h
  | .answering h => answerStep h

/-- What the next step of a task takes from its allowance. -/
def toll : Task → Hub → Toll
  | .reading h => readToll h
  | .writing h => writeToll h
  | .answering _ => fun _ => .free

/-- What a task does instead of giving way. -/
def insteadOfWaiting : Task → Hub → Option Hub
  | .reading h => lapse h
  | .writing _ | .answering _ => fun _ => none

/-- The task can take a step. -/
def isReady (hub : Hub) (task : Task) : Bool :=
  (hub.step task).isSome

/-- The tasks of all peers. -/
def tasks (hub : Hub) : List Task :=
  (List.range hub.peers.length).flatMap fun h => [.reading h, .writing h, .answering h]

/-- The timers that a waiting task has set. -/
def timers (hub : Hub) (task : Task) : List Timer :=
  match task with
  | .reading h =>
      match hub.peers[h]?.map Peer.reader with
      | some (.waiting deadline) => [⟨task, .deadline, deadline⟩]
      | some (.handling _ job (.recording _ (some wake))) =>
          [⟨task, .wake, wake⟩, ⟨task, .limit, job.limit.expires⟩]
      | _ => []
  | .writing h =>
      match hub.peers[h]?.map Peer.writer with
      | some (.idle due) => [⟨task, .tick, due⟩]
      | _ => []
  | .answering _ => []

/-- A bound on the steps that are possible before the clock has to move. -/
def effort (hub : Hub) : Nat :=
  let board := hub.service.board
  let perEvent := 16 + 2 * hub.service.store.favorites.length + 2 * board.members.length
  let arrived := hub.peers.foldr (fun peer n => peer.inbox.length + n) 0
  let queued := board.connections.foldr (fun c n => c.queue.length + n) 0
  (arrived + hub.peers.length + 2) * perEvent + 4 * queued + 40 * (hub.peers.length + 1)

/-- Takes steps of a task until it waits or, with nothing `left` of its allowance, gives way; the
flag tells that it gave way. -/
def runTask (task : Task) : Nat → Nat → Hub → Bool × Hub
  | 0, _, hub => (false, hub)
  | fuel + 1, left, hub =>
      let toll := hub.toll task
      if toll.stops left then
        match hub.insteadOfWaiting task with
        | some next => runTask task fuel left next
        | none => (true, hub)
      else
        match hub.step task with
        | some next => runTask task fuel (toll.pay left) next
        | none => (false, hub)

end Hub

/-- The hub and the timers that are set, in the order of setting. -/
structure Schedule where
  hub : Hub
  agenda : List Timer

namespace Schedule

/-- The timers after a task has run: those it keeps stay in place, new ones go to the end. -/
def reset (agenda : List Timer) (task : Task) (timers : List Timer) : List Timer :=
  let kept timer := timers.contains timer && timer.kind != .deadline
  let agenda := agenda.filter fun timer => timer.task != task || kept timer
  agenda ++ timers.filter fun timer => !agenda.contains timer

/-- Runs a task until it waits or gives way. -/
def run (schedule : Schedule) (task : Task) : Bool × Schedule :=
  let (gaveWay, hub) := schedule.hub.runTask task schedule.hub.effort allowance
  (gaveWay, ⟨hub, reset schedule.agenda task (hub.timers task)⟩)

/-- Runs the ready tasks in turn, then those that gave way, until none is left. -/
def settleFrom : Nat → (ready gaveWay : List Task) → Schedule → Schedule
  | 0, _, _, schedule => schedule
  | _ + 1, [], [], schedule => schedule
  | fuel + 1, [], task :: gaveWay, schedule => settleFrom fuel (task :: gaveWay) [] schedule
  | fuel + 1, task :: ready, gaveWay, schedule =>
      let (again, next) := schedule.run task
      let gaveWay := if again then task :: gaveWay else gaveWay
      let woken := next.hub.tasks.filter fun t =>
        !ready.contains t && !gaveWay.contains t && next.hub.isReady t
      settleFrom fuel (ready ++ woken) gaveWay next

/-- Runs everything that can run without the clock moving, `ready` first. -/
def settle (schedule : Schedule) (ready : List Task) : Schedule :=
  let others := schedule.hub.tasks.filter fun t => !ready.contains t && schedule.hub.isReady t
  settleFrom (8 * (schedule.hub.effort + 1)) (ready ++ others) [] schedule

/-- Lets something happen to the hub and runs what follows from it. -/
def perform (schedule : Schedule) (change : Hub → Hub) : Schedule :=
  ({ schedule with hub := change schedule.hub }).settle []

/-- The whole millisecond at which a timer fires. -/
def fires (timer : Timer) : Instant :=
  (timer.due + 999_999) / 1_000_000 * 1_000_000

/-- Moves the clock to an instant and runs the tasks whose timers fire, in the order of setting. -/
def jump (schedule : Schedule) (instant : Instant) : Schedule :=
  let fired := (schedule.agenda.filter fun timer => fires timer ≤ instant).map (·.task)
  ({ schedule with hub := { schedule.hub with now := instant } }).settle
    (fired.eraseDups.filter fun t => { schedule.hub with now := instant : Hub }.isReady t)

/-- Moves the clock on to `target`, from timer to timer. -/
def advanceTo (target : Instant) : Nat → Schedule → Schedule
  | 0, schedule => schedule
  | fuel + 1, schedule =>
      let now := schedule.hub.now
      let coming := (schedule.agenda.map fires).filter fun t => now < t && t ≤ target
      match coming.min? with
      | some instant => advanceTo target fuel (schedule.jump instant)
      | none => schedule.jump target

/-- Moves the clock on by whole milliseconds. -/
def advance (schedule : Schedule) (millis : Nat) : Schedule :=
  advanceTo (schedule.hub.now + millis * 1_000_000) (millis + 1) schedule

end Schedule

end ListingHub
