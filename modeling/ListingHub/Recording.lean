import ListingHub.Store
import ListingHub.Time.Instant

/-!
# Recording an event

Whom an event concerns is looked up, and one notification is stored for each of them in the order of
their keys. The first failure ends the work and leaves the rows that were stored. `Recording` is the
work step by step, with pauses between the steps; `record` does all of it with nothing in between.
-/

namespace ListingHub

/-- The notification of an event for one user. -/
def Event.draft (event : Event) (user : UserId) : Draft where
  userId := user
  listingId := event.listing
  kind := event.kind
  message := event.message

namespace Faults

/-- Looks up whom an event concerns: the agent of a favorited listing, otherwise everybody who
favorited it. -/
def recipients (faults : Faults) (store : Store) (event : Event) :
    Except Failure (List UserId) :=
  match event with
  | .favorited listing _ => (faults.agentOf store listing).map fun agent => [agent]
  | .priceDrop .. | .statusChange .. => faults.interested store event.listing

end Faults

/-- How far the recording of an event is. -/
inductive Recording where
  /-- The recipients are not known yet. -/
  | lookingUp
  /-- Some recipients have no row yet. -/
  | storing (recipients todo : List UserId)
  /-- The work ended with the recipients or a failure. -/
  | finished (outcome : Except Failure (List UserId))

namespace Recording

/-- The work that is left for recipients. -/
def ofTodo (recipients : List UserId) : List UserId → Recording
  | [] => finished (.ok recipients)
  | user :: todo => storing recipients (user :: todo)

/-- How long the next step takes to begin. -/
def delay (faults : Faults) (event : Event) : Recording → Nat
  | lookingUp => faults.lookupDelay event.listing
  | storing _ (user :: _) => faults.createDelay user
  | storing _ [] | finished _ => 0

/-- The next step: the lookup or one row. -/
def step (faults : Faults) (event : Event) (now : Timestamp) (store : Store) :
    Recording → Recording × Store
  | lookingUp =>
      match faults.recipients store event with
      | .ok users => (ofTodo users users, store)
      | .error failure => (finished (.error failure), store)
  | storing recipients [] => (finished (.ok recipients), store)
  | storing recipients (user :: todo) =>
      match faults.create store (event.draft user) now with
      | (.ok _, store) => (ofTodo recipients todo, store)
      | (.error failure, store) => (finished (.error failure), store)
  | finished outcome => (finished outcome, store)

end Recording

/-- A limit of time: when it expires and the failure it expires with. -/
structure Limit where
  expires : Instant
  failure : Failure

/-- A pause that begins at `now` and when it ends, unless the limit expires before. -/
def pause (limit : Option Limit) (now delay : Instant) : Except Failure Instant :=
  match limit with
  | some limit =>
      if 0 < delay ∧ limit.expires < now + delay then .error limit.failure else .ok (now + delay)
  | none => .ok (now + delay)

namespace Faults

/-- Stores the notifications of an event for users one after another; the limit may expire in the
pause before each. -/
def storeAll (faults : Faults) (event : Event) (start : Timestamp) (limit : Option Limit) :
    List UserId → Instant → Store → Except Failure Unit × Store
  | [], _, store => (.ok (), store)
  | user :: todo, now, store =>
      match pause limit now (faults.createDelay user) with
      | .error failure => (.error failure, store)
      | .ok now =>
          match faults.create store (event.draft user) (start.later now) with
          | (.ok _, store) => faults.storeAll event start limit todo now store
          | (.error failure, store) => (.error failure, store)

/-- Records an event from `now` on, with nothing in between. -/
def record (faults : Faults) (event : Event) (start : Timestamp) (limit : Option Limit)
    (now : Instant) (store : Store) : Except Failure (List UserId) × Store :=
  match pause limit now (faults.lookupDelay event.listing) with
  | .error failure => (.error failure, store)
  | .ok now =>
      match faults.recipients store event with
      | .error failure => (.error failure, store)
      | .ok users =>
          let (outcome, store) := faults.storeAll event start limit users now store
          (outcome.map fun _ => users, store)

end Faults

end ListingHub
