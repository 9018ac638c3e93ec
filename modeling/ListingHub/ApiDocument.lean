import ListingHub.Http.Body

/-!
# The document of the HTTP interface

The description of the three documented routes and of their bodies in the OpenAPI format, and JSON
pointers into it.
-/

namespace ListingHub

namespace Json

/-- The steps of a JSON pointer; `~1` stands for a slash and `~0` for a tilde. -/
def unescapeStep : List Char → List Char
  | [] => []
  | [c] => [c]
  | '~' :: '1' :: rest => '/' :: unescapeStep rest
  | '~' :: '0' :: rest => '~' :: unescapeStep rest
  | c :: d :: rest => c :: unescapeStep (d :: rest)

/-- An index into a list: digits without a sign or a leading zero. -/
def index? (step : List Char) : Option Nat :=
  match step with
  | ['0'] => some 0
  | '0' :: _ => none
  | digits => Text.natural? digits

/-- The part of a value that a step leads to. -/
def child? (step : List Char) : Json → Option Json
  | .obj members => members.lookup (String.ofList step)
  | .arr elements => (index? step).bind fun i => elements[i]?
  | _ => none

/-- The part of a value that a pointer leads to; the empty pointer leads to all of it. -/
def resolve? (pointer : String) (value : Json) : Option Json :=
  match pointer.toList.splitOnP (· == '/') with
  | [[]] => some value
  | [] :: steps =>
      (steps.map unescapeStep).foldl (fun part step => part.bind (child? step)) (some value)
  | _ => none

end Json

namespace ApiDocument

/-- A record of strings. -/
def texts (members : List (String × String)) : Json :=
  .obj (members.map fun m => (m.1, .str m.2))

/-- A reference to a schema. -/
def schema (name : String) : Json :=
  texts [("$ref", "#/components/schemas/" ++ name)]

/-- A response with a JSON body. -/
def response (description : String) (body : Json) : Json :=
  .obj [("description", .str description),
    ("content", .obj [("application/json", .obj [("schema", body)])])]

/-- An operation on a path. -/
def operation (tag summary description id : String) (parameters : List Json)
    (responses : List (String × Json)) : Json :=
  .obj ([("tags", .arr [.str tag]), ("summary", .str summary), ("description", .str description),
    ("operationId", .str id)] ++
    (if parameters.isEmpty then [] else [("parameters", .arr parameters)]) ++
    [("responses", .obj responses)])

/-- The answer to a caller without a session. -/
def noSession : String × Json :=
  ("401", response "Missing or unknown session" (schema "ErrorResponse"))

/-- The state of the service. -/
def healthPath : Json :=
  .obj [("get", operation "System" "Health check"
    "Returns service health status, version, current timestamp and the number of live WebSocket connections."
    "health_handler" []
    [("200", response "Service is healthy" (schema "HealthResponse"))])]

/-- The caller's notifications. -/
def notificationsPath : Json :=
  .obj [("get", operation "Notifications" "List notifications"
    "Returns every notification addressed to the authenticated user, oldest first. An empty array when there are none."
    "list_notifications" []
    [("200", response "Notification list"
      (.obj [("type", .str "array"), ("items", schema "NotificationDto")])), noSession])]

/-- The read flag of a notification. -/
def readPath : Json :=
  .obj [("patch", operation "Notifications" "Toggle read status"
    "Toggles `is_read` on one of the authenticated user's notifications and returns the updated row."
    "toggle_read"
    [.obj [("name", .str "id"), ("in", .str "path"), ("description", .str "Notification ID"),
      ("required", .bool true), ("schema", texts [("type", "integer"), ("format", "int64")])]]
    [("200", response "Updated notification" (schema "NotificationDto")), noSession,
      ("404", response "Notification not found" (schema "ErrorResponse"))])]

/-- A property of a schema. -/
def property (name kind description : String) (extra : List (String × Json)) : String × Json :=
  (name, .obj ([("type", .str kind)] ++ extra ++ [("description", .str description)]))

/-- The format of 64-bit integers. -/
def int64 : List (String × Json) := [("format", .str "int64")]

/-- A schema of an object. -/
def object (description : String) (required : List String) (properties : List (String × Json)) :
    Json :=
  .obj [("type", .str "object"), ("description", .str description),
    ("required", .arr (required.map .str)), ("properties", .obj properties)]

/-- The description of error bodies, with an example. -/
def errorDescription : String :=
  "Structured JSON error response body.\n\nAll error responses follow this shape:\n" ++
    "```json\n\x7b\n  \"error\": \x7b\n    \"code\": 2001,\n" ++
    "    \"message\": \"notification not found: 12\",\n    \"details\": null\n  \x7d\n\x7d\n```"

/-- The schemas of the bodies. -/
def schemas : Json :=
  .obj [("NotificationDto",
      object "A stored notification as returned by the REST endpoints."
        ["id", "user_id", "listing_id", "type", "message", "is_read", "created_at"]
        [property "id" "integer" "Notification ID." int64,
          property "user_id" "integer" "Recipient user ID." int64,
          property "listing_id" "integer" "Listing the notification is about." int64,
          property "type" "string" "Notification type, e.g. `\"price_drop_notification\"`."
            [("example", .str "price_drop_notification")],
          property "message" "string" "Human-readable text."
            [("example", .str "Price Drop: 1 Main St was reduced to $400,000")],
          property "is_read" "boolean" "Whether the recipient has marked it read." [],
          property "created_at" "string" "Creation timestamp." [("format", .str "date-time")]]),
    ("HealthResponse",
      object "Health check response." ["status", "timestamp", "version", "connections"]
        [("status", texts [("type", "string")]), ("timestamp", texts [("type", "string")]),
          ("version", texts [("type", "string")]),
          ("connections", .obj [("type", .str "integer"), ("minimum", .int 0)])]),
    ("ErrorResponse",
      object errorDescription ["error"]
        [("error", texts [("$ref", "#/components/schemas/ErrorBody"),
          ("description", "Structured error payload.")])]),
    ("ErrorBody",
      object "Inner error body with numeric code and human-readable message."
        ["code", "message"]
        [property "code" "integer" "Numeric error code."
            [("format", .str "int32"), ("minimum", .int 0)],
          property "message" "string" "Human-readable error message." [],
          ("details", .obj [("type", .arr [.str "string", .str "null"]),
            ("description", .str "Optional additional details.")])])]

/-- The document. -/
def document : Json :=
  .obj [("openapi", .str "3.1.0"),
    ("info", .obj [("title", .str "listing-notify"),
      ("description", .str ("Realtime listing notifications: stored notification history and " ++
        "read-state management. Live pushes are delivered over the `/ws` WebSocket.")),
      ("license", texts [("name", "MIT"), ("identifier", "MIT")]),
      ("version", .str Http.version)]),
    ("paths", .obj [("/api/v1/notifications", notificationsPath),
      ("/api/v1/notifications/\x7bid\x7d/read", readPath),
      ("/health", healthPath)]),
    ("components", .obj [("schemas", schemas)]),
    ("tags", .arr [
      texts [("name", "Notifications"),
        ("description", "Stored notifications for the authenticated user")],
      texts [("name", "System"), ("description", "Service health")]])]

end ApiDocument

end ListingHub
