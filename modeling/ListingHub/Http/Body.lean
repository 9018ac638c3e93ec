import ListingHub.Notification

/-!
# Response bodies

The records in which the HTTP interface shows notifications and the state of the service.
-/

namespace ListingHub.Http

/-- A notification as the HTTP interface shows it. -/
structure NotificationBody where
  id : Int64
  userId : Int64
  listingId : Int64
  kind : String
  message : String
  isRead : Bool
  createdAt : Timestamp

namespace NotificationBody

/-- The body that shows a notification. -/
def ofNotification (n : Notification) : NotificationBody where
  id := n.id.key
  userId := n.userId.key
  listingId := n.listingId.key
  kind := n.kind.name
  message := n.message
  isRead := n.isRead
  createdAt := n.createdAt

/-- A notification body as a JSON record. -/
def toJson (body : NotificationBody) : Json :=
  .obj [("id", .int body.id.toInt), ("user_id", .int body.userId.toInt),
    ("listing_id", .int body.listingId.toInt), ("type", .str body.kind),
    ("message", .str body.message), ("is_read", .bool body.isRead),
    ("created_at", .str body.createdAt.text)]

end NotificationBody

/-- The version of the service. -/
def version : String := "0.1.0"

/-- The state of the service at a moment, with so many connections. -/
def healthBody (now : Timestamp) (connections : Nat) : Json :=
  .obj [("status", .str "healthy"), ("timestamp", .str now.offsetText), ("version", .str version),
    ("connections", .int connections)]

end ListingHub.Http
