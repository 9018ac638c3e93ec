import ListingHub.Ids
import ListingHub.Time.Duration

/-!
# Failures

Everything that can go wrong with a request or an event, with its message, its numeric code and the
HTTP status it is answered with.
-/

namespace ListingHub

/-- Why a request or an event was not carried out. -/
inductive Failure where
  /-- A frame is no envelope. -/
  | malformedEnvelope (reason : String)
  /-- A payload does not fit the event type. -/
  | malformedPayload (eventType reason : String)
  /-- Nothing handles the event type. -/
  | unknownEventType (eventType : String)
  /-- The recipients of a listing could not be looked up. -/
  | lookupFailed (listing : ListingId) (reason : String)
  /-- The listing has no agent. -/
  | listingNotFound (listing : ListingId)
  /-- The store failed. -/
  | persistence (reason : String)
  /-- Lookup and storage took too long. -/
  | handlerTimeout (limit : Duration)
  /-- The caller has no such notification. -/
  | notificationNotFound (id : NotificationId)
  /-- The session token is missing or unknown. -/
  | unauthorized
  /-- Something else went wrong. -/
  | internal (reason : String)
  deriving DecidableEq

namespace Failure

/-- The message of a failure. -/
def message : Failure → String
  | malformedEnvelope reason => "malformed envelope: " ++ reason
  | malformedPayload eventType reason => "malformed " ++ eventType ++ " payload: " ++ reason
  | unknownEventType eventType => "unknown event type: " ++ eventType
  | lookupFailed listing reason =>
      "recipient lookup failed for listing " ++ listing.text ++ ": " ++ reason
  | listingNotFound listing => "listing not found: " ++ listing.text
  | persistence reason => "persistence error: " ++ reason
  | handlerTimeout limit => "handler timed out after " ++ limit.text
  | notificationNotFound id => "notification not found: " ++ id.text
  | unauthorized => "unauthorized"
  | internal reason => "internal error: " ++ reason

/-- The numeric code: below 2000 for bad input, below 3000 for what is missing or not allowed, from
3000 on for the service's own failures. -/
def code : Failure → Nat
  | malformedEnvelope _ => 1002
  | malformedPayload .. => 1003
  | unknownEventType _ => 1004
  | notificationNotFound _ => 2001
  | listingNotFound _ => 2002
  | unauthorized => 2401
  | internal _ => 3000
  | persistence _ => 3001
  | lookupFailed .. => 3002
  | handlerTimeout _ => 3003

/-- The HTTP status that a failure is answered with. -/
def status : Failure → Nat
  | malformedEnvelope _ | malformedPayload .. | unknownEventType _ => 400
  | notificationNotFound _ | listingNotFound _ => 404
  | unauthorized => 401
  | persistence _ | internal _ => 500
  | lookupFailed .. => 502
  | handlerTimeout _ => 504

/-- The service, not the caller, is to blame. -/
def isServerError (failure : Failure) : Bool :=
  500 ≤ failure.status && failure.status ≤ 599

/-- The body of the HTTP answer to a failure. -/
def body (failure : Failure) : Json :=
  .obj [("error", .obj [("code", .int failure.code), ("message", .str failure.message)])]

end Failure

/-- Why the database did not answer. -/
inductive DatabaseFault where
  | noRow
  | timedOut
  | poolClosed
  | workerCrashed
  | protocol (text : String)
  deriving DecidableEq, Repr

namespace DatabaseFault

/-- The message of a database fault. -/
def message : DatabaseFault → String
  | noRow => "no rows returned by a query that expected to return at least one row"
  | timedOut => "pool timed out while waiting for an open connection"
  | poolClosed => "attempted to acquire a connection on a closed pool"
  | workerCrashed => "attempted to communicate with a crashed background worker"
  | protocol text => "encountered unexpected or invalid data: " ++ text

/-- A database fault is a failure of the store. -/
def failure (fault : DatabaseFault) : Failure :=
  .persistence fault.message

end DatabaseFault

end ListingHub
