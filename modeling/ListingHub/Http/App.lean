import ListingHub.Http.Body
import ListingHub.Http.Request
import ListingHub.Http.Response
import ListingHub.Hub.Basic

/-!
# The HTTP interface

Four routes: the state of the service, the caller's notifications, the read flag of one of them, and
the upgrade to a WebSocket. Any origin may call them; `OPTIONS` is always answered as a preflight.
-/

namespace ListingHub.Http

/-- What a path leads to. -/
inductive Route where
  | health
  | notifications
  /-- The read flag of the notification whose number is spelled by the segment. -/
  | readFlag (id : String)
  | upgrade
  deriving DecidableEq, Repr

namespace Route

/-- The route of a path. -/
def ofPath? (path : String) : Option Route :=
  match (path.toList.splitOnP (· == '/')).map String.ofList with
  | ["", "health"] => some health
  | ["", "ws"] => some upgrade
  | ["", "api", "v1", "notifications"] => some notifications
  | ["", "api", "v1", "notifications", id, "read"] => some (readFlag id)
  | _ => none

/-- The methods that a route takes, apart from `OPTIONS`. -/
def methods : Route → List String
  | readFlag _ => ["PATCH"]
  | health | notifications | upgrade => ["GET", "HEAD"]

/-- The header that lists the methods of a route. -/
def allow (route : Route) : String × String :=
  ("allow", String.intercalate "," route.methods)

end Route

/-- Any origin may call. -/
def anyOrigin : String × String := ("access-control-allow-origin", "*")

/-- What the answers to other origins depend on. -/
def vary : String × String :=
  ("vary", "origin, access-control-request-method, access-control-request-headers")

/-- The answer to `OPTIONS`. -/
def preflight (route : Option Route) : Response where
  status := 200
  headers := [anyOrigin, ("access-control-allow-methods", "*"),
    ("access-control-allow-headers", "*"), vary] ++ (route.map Route.allow).toList
  body := ""

/-- A response that any origin may read. -/
def shared (response : Response) : Response :=
  { response with
    headers := response.headers ++ [anyOrigin, ("access-control-expose-headers", "*"), vary] }

/-- The header is there and equals `value` up to ASCII case. -/
def headerIs (request : Request) (name value : String) : Bool :=
  (request.header? name).any fun bytes =>
    Utf8.toText? bytes |>.any fun text => text.map Char.toLower == value

/-- `part` occurs somewhere in a text. -/
def occursIn (part : List Char) : List Char → Bool
  | [] => part.isEmpty
  | c :: rest => part.isPrefixOf (c :: rest) || occursIn part rest

/-- The header is there and contains `part` up to ASCII case. -/
def headerContains (request : Request) (name part : String) : Bool :=
  (request.header? name).any fun bytes =>
    Utf8.toText? bytes |>.any fun text => occursIn part.toList (text.map Char.toLower).toList

/-- Why a request is no WebSocket handshake: the first of its faults. -/
def handshakeFault? (request : Request) : Option Response :=
  if request.method ≠ "GET" then some (.plain 405 "Request method must be `GET`")
  else if !headerContains request "connection" "upgrade" then
    some (.plain 400 "Connection header did not include 'upgrade'")
  else if !headerIs request "upgrade" "websocket" then
    some (.plain 400 "`Upgrade` header did not include 'websocket'")
  else if (request.header? "sec-websocket-key").isNone then
    some (.plain 400 "`Sec-WebSocket-Key` header missing")
  else if !headerIs request "sec-websocket-version" "13" then
    some (.plain 400 "`Sec-WebSocket-Version` header did not include '13'")
  else none

/-- The answer to a handshake over a connection that cannot be upgraded. -/
def notUpgradable : Response :=
  .plain 426 "WebSocket request couldn't be upgraded since no upgrade state was present"

/-- The number of a notification in a path. -/
def notificationId (segment : String) : Except Response NotificationId :=
  match decodeText? segment.toList with
  | none => .error (.plain 400 "Invalid URL: Invalid UTF-8 in `id`")
  | some text =>
      match Text.signed? text.toList with
      | some id => .ok ⟨id⟩
      | none => .error (.plain 400 ("Invalid URL: Cannot parse `" ++ text ++ "` to a `i64`"))

/-- Answers a failure and logs it, if the service is to blame. -/
def fail (failure : Failure) (hub : Hub) : Response × Hub :=
  (.ofFailure failure, hub.log ((failureLog failure).map fun event => (none, event)))

/-- The caller's notifications, oldest first. -/
def listNotifications (request : Request) (hub : Hub) : Response × Hub :=
  let service := hub.service
  let outcome := do
    let identity ← authenticate service.faults service.store request
    service.faults.listFor service.store identity.userId
  match outcome with
  | .error failure => fail failure hub
  | .ok rows =>
      (.json 200 (.arr (rows.map fun row => (NotificationBody.ofNotification row).toJson)), hub)

/-- Flips the read flag of one of the caller's notifications. The session is looked at before the
number. -/
def toggleRead (segment : String) (request : Request) (hub : Hub) : Response × Hub :=
  let service := hub.service
  match authenticate service.faults service.store request with
  | .error failure => fail failure hub
  | .ok identity =>
      match notificationId segment with
      | .error response => (response, hub)
      | .ok id =>
          match service.faults.toggleRead service.store id identity.userId with
          | (.error failure, store) => fail failure { hub with service := { service with store } }
          | (.ok row, store) =>
              (.json 200 (NotificationBody.ofNotification row).toJson,
                { hub with service := { service with store } })

/-- A WebSocket handshake over a connection that can be upgraded. If it succeeds, the peer is let
in under the identity of the session. -/
def upgrade (request : Request) (hub : Hub) : Except Response Handle × Hub :=
  match handshakeFault? request with
  | some response => (.error response, hub)
  | none =>
      match authenticate hub.service.faults hub.service.store request with
      | .error failure =>
          let (response, hub) := fail failure hub
          (.error response, hub)
      | .ok identity =>
          let (h, hub) := hub.accept identity .webSocket
          (.ok h, hub)

/-- Carries out a request whose method its route takes. -/
def serve (route : Route) (request : Request) (hub : Hub) : Response × Hub :=
  match route with
  | .health =>
      let service := hub.service
      (.json 200 (healthBody (service.start.later hub.now) service.board.size), hub)
  | .notifications => listNotifications request hub
  | .readFlag segment => toggleRead segment request hub
  | .upgrade => ((handshakeFault? request).getD notUpgradable, hub)

/-- Answers a request. `HEAD` is answered like `GET`, without the body. -/
def respond (request : Request) (hub : Hub) : Response × Hub :=
  let route := Route.ofPath? request.path
  if request.method = "OPTIONS" then (preflight route, hub)
  else
    match route with
    | none => (shared (.empty 404), hub)
    | some route =>
        if route.methods.contains request.method then
          let (response, hub) := serve route request hub
          (shared (if request.method = "HEAD" then { response with body := "" } else response), hub)
        else (shared { Response.empty 405 with headers := [route.allow] }, hub)

end ListingHub.Http
