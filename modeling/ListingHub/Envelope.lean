import ListingHub.Failure
import ListingHub.Json.View
import ListingHub.Json.Writer
import ListingHub.Notification

/-!
# Envelopes

Every frame in either direction is an envelope: the type of an event and a payload that only the
handler of that type looks into. A frame may also list the two in this order.
-/

namespace ListingHub

/-- The type of an event and its payload. -/
structure Envelope where
  eventType : String
  payload : Json
  deriving Repr

/-- The message that is pushed for a notification. -/
structure Push where
  message : String
  deriving DecidableEq, Repr

namespace Push

/-- A push as a JSON record. -/
def toJson (push : Push) : Json :=
  .obj [("message", .str push.message)]

/-- A push in JSON text. -/
def record : Json.Record Json.Reader Push where
  name := "NotificationPush"
  fields := [⟨"message", String, Json.readString, none⟩]
  build := fun (message, _) => ⟨message⟩

/-- A push in a payload. -/
def shape : Json.Record Json.View Push where
  name := "NotificationPush"
  fields := [⟨"message", String, Json.asString, none⟩]
  build := fun (message, _) => ⟨message⟩

end Push

namespace Envelope

/-- An envelope in JSON text: a type and a payload, `null` when it is absent. The envelope counts as
one of the nested containers. -/
def record : Json.Record Json.Reader Envelope where
  name := "Envelope"
  fields := [⟨"type", String, Json.readString, none⟩,
    ⟨"payload", Json, Json.readValue (Json.depthLimit - 1), some .null⟩]
  build := fun (eventType, payload, _) => ⟨eventType, payload⟩

/-- The envelope in a frame. -/
def ofFrame (frame : List UInt8) : Except Failure Envelope :=
  match Json.readAll record.read frame with
  | .ok envelope => .ok envelope
  | .error fault => .error (.malformedEnvelope (fault.message frame))

/-- An envelope as a JSON record. -/
def toJson (envelope : Envelope) : Json :=
  .obj [("type", .str envelope.eventType), ("payload", envelope.payload)]

/-- The text of the frame that carries an envelope. -/
def encode (envelope : Envelope) : String :=
  envelope.toJson.text

/-- Takes the payload as a record. -/
def decodePayload {α : Type} (shape : Json.Record Json.View α) (envelope : Envelope) :
    Except Failure α :=
  match shape.view envelope.payload with
  | .ok value => .ok value
  | .error why => .error (.malformedPayload envelope.eventType why.message)

/-- The envelope that pushes a notification. -/
def notification (kind : NotificationKind) (message : String) : Envelope :=
  ⟨kind.name, (Push.mk message).toJson⟩

end Envelope

end ListingHub
