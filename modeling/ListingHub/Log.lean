import ListingHub.Failure
import ListingHub.Identity
import ListingHub.Settings

/-!
# The log

What the service writes to its log: an event, from which level, message and fields follow.
-/

namespace ListingHub

/-- Why a pump stopped. -/
inductive Exit where
  /-- Teardown was started elsewhere. -/
  | cancelled
  /-- The peer closed the socket or its stream ended. -/
  | peerClosed
  /-- No pong came in time. -/
  | deadlineExceeded
  /-- The peer sent a frame above the limit. -/
  | frameTooLarge (size : Nat)
  /-- Reading from or writing to the socket failed. -/
  | transport (reason : String)
  /-- The outbound queue was closed. -/
  | queueClosed
  deriving DecidableEq, Repr

/-- The text of an exit. -/
def Exit.text : Exit → String
  | cancelled => "cancelled"
  | peerClosed => "peer closed"
  | deadlineExceeded => "pong deadline exceeded"
  | frameTooLarge size => "frame of " ++ toString size ++ " bytes exceeds read limit"
  | transport reason => "transport error: " ++ reason
  | queueClosed => "outbound queue closed"

/-- How serious a line is. -/
inductive LogLevel where
  | info
  | warn
  | error
  deriving DecidableEq, Repr

/-- The name of a level. -/
def LogLevel.name : LogLevel → String
  | info => "info"
  | warn => "warn"
  | error => "error"

/-- Something worth a line in the log. -/
inductive LogEvent where
  /-- A connection was registered. -/
  | opened (identity : Identity)
  /-- A frame was no envelope. -/
  | undecodable (failure : Failure)
  /-- The handler of an event failed. -/
  | notProcessed (user : UserId) (eventType : String) (failure : Failure)
  /-- A notification was stored and pushed. -/
  | dispatched (user : UserId) (eventType : String) (listing : ListingId)
      (recipients delivered : Nat)
  /-- A message found the queue of a connection full. -/
  | queueFull (user : UserId) (policy : OverflowPolicy)
  /-- A pump took its connection off the registry. -/
  | tearingDown (user : UserId) (reason : Exit)
  /-- Both pumps of a connection have stopped. -/
  | closed (user : UserId) (read : Exit) (write : String)
  /-- A request was answered with a server error. -/
  | requestFailed (failure : Failure)
  deriving DecidableEq

namespace LogEvent

/-- How serious an event is. -/
def level : LogEvent → LogLevel
  | opened _ | dispatched .. | tearingDown .. | closed .. => .info
  | undecodable _ | notProcessed .. | queueFull .. => .warn
  | requestFailed _ => .error

/-- The message of an event. -/
def message : LogEvent → String
  | opened _ => "connection opened"
  | undecodable _ => "dropping undecodable frame"
  | notProcessed .. => "event not processed"
  | dispatched .. => "notification dispatched"
  | queueFull .. => "outbound queue full"
  | tearingDown .. => "tearing down connection"
  | closed .. => "connection closed"
  | requestFailed _ => "request failed"

/-- The fields of an event. -/
def fields : LogEvent → List (String × Json)
  | opened identity =>
      [("user_id", .str identity.userId.text), ("role", .str identity.role.name)]
  | undecodable failure => [("error", .str failure.message)]
  | notProcessed user eventType failure =>
      [("user_id", .str user.text), ("event_type", .str eventType), ("error", .str failure.message)]
  | dispatched user eventType listing recipients delivered =>
      [("user_id", .str user.text), ("event_type", .str eventType),
        ("listing_id", .str listing.text), ("recipients", .int recipients),
        ("delivered", .int delivered)]
  | queueFull user policy => [("user_id", .str user.text), ("policy", .str policy.name)]
  | tearingDown user reason => [("user_id", .str user.text), ("reason", .str reason.text)]
  | closed user read write =>
      [("user_id", .str user.text), ("read", .str read.text), ("write", .str write)]
  | requestFailed failure => [("error", .str failure.message)]

end LogEvent

end ListingHub
