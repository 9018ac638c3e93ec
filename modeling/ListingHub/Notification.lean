import ListingHub.Identity
import ListingHub.Time.Timestamp

/-!
# Notifications

The three kinds of notification and the stored notification itself. The name of a kind is also the
type of the event that causes it and of the message that is pushed for it.
-/

namespace ListingHub

/-- What a notification is about. -/
inductive NotificationKind where
  /-- Somebody favorited a listing. -/
  | favoritedListing
  /-- The price of a listing was reduced. -/
  | priceDrop
  /-- The status of a listing changed. -/
  | statusChanged
  deriving DecidableEq, Repr

namespace NotificationKind

/-- Every kind. -/
def all : List NotificationKind := [.favoritedListing, .priceDrop, .statusChanged]

/-- The name of a kind in frames and in storage. -/
def name : NotificationKind → String
  | favoritedListing => "favorited_listing_notification"
  | priceDrop => "price_drop_notification"
  | statusChanged => "status_changed_notification"

/-- The kind of a name. -/
def ofName? (name : String) : Option NotificationKind :=
  all.find? fun kind => kind.name == name

/-- The variant of a kind in JSON. -/
def variant : NotificationKind → String
  | favoritedListing => "favorited_listing_notification"
  | priceDrop => "price_drop_notification"
  | statusChanged => "status_changed_notification"

/-- A kind is written in JSON by its name. -/
theorem variant_eq_name (kind : NotificationKind) : kind.variant = kind.name := by
  cases kind <;> rfl

/-- A kind as a JSON value. -/
def toJson (kind : NotificationKind) : Json := .str kind.variant

/-- Reads a kind. -/
def read : Json.Reader NotificationKind :=
  Json.readVariant (all.map fun kind => (kind.variant, kind))

end NotificationKind

/-- A notification that is about to be stored. -/
structure Draft where
  userId : UserId
  listingId : ListingId
  kind : NotificationKind
  message : String
  deriving DecidableEq, Repr

/-- A stored notification. -/
structure Notification where
  id : NotificationId
  userId : UserId
  listingId : ListingId
  kind : NotificationKind
  message : String
  isRead : Bool
  createdAt : Timestamp
  deriving DecidableEq, Repr

/-- An unread notification made of a draft. -/
def Notification.ofDraft (id : NotificationId) (draft : Draft) (createdAt : Timestamp) :
    Notification where
  id := id
  userId := draft.userId
  listingId := draft.listingId
  kind := draft.kind
  message := draft.message
  isRead := false
  createdAt := createdAt

/-- A stored notification as a JSON record. -/
def Notification.toJson (n : Notification) : Json :=
  .obj [("id", n.id.toJson), ("user_id", n.userId.toJson), ("listing_id", n.listingId.toJson),
    ("type", n.kind.toJson), ("message", .str n.message), ("is_read", .bool n.isRead),
    ("created_at", .str n.createdAt.text)]

end ListingHub
