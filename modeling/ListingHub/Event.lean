import ListingHub.Envelope

/-!
# Listing events

What an envelope of one of the three notification types says, and the text shown to the people it
concerns.
-/

namespace ListingHub

/-- Something that happened to a listing. -/
inductive Event where
  | favorited (listing : ListingId) (address : String)
  | priceDrop (listing : ListingId) (address price : String)
  | statusChange (listing : ListingId) (address status : String)
  deriving DecidableEq, Repr

namespace Event

open Json (Field View asString asInt64)

/-- The listing in a payload. -/
def listingField : Field View :=
  ⟨"listing_id", ListingId, ListingId.mk <$> (asInt64 : View Int64), none⟩

/-- A text in a payload. -/
def textField (name : String) : Field View :=
  ⟨name, String, asString, none⟩

/-- The payload of a favorite. -/
def favoritedShape : Json.Record View Event where
  name := "FavoritedListing"
  fields := [listingField, textField "address"]
  build := fun (listing, address, _) => .favorited listing address

/-- The payload of a price drop. -/
def priceDropShape : Json.Record View Event where
  name := "PriceDrop"
  fields := [listingField, textField "address", textField "price"]
  build := fun (listing, address, price, _) => .priceDrop listing address price

/-- The payload of a status change. -/
def statusChangeShape : Json.Record View Event where
  name := "StatusChange"
  fields := [listingField, textField "address", textField "status"]
  build := fun (listing, address, status, _) => .statusChange listing address status

/-- The payload that a kind of notification asks for. -/
def shape : NotificationKind → Json.Record View Event
  | .favoritedListing => favoritedShape
  | .priceDrop => priceDropShape
  | .statusChanged => statusChangeShape

/-- The event of an envelope. -/
def ofEnvelope (envelope : Envelope) : Except Failure Event :=
  match NotificationKind.ofName? envelope.eventType with
  | some kind => envelope.decodePayload (shape kind)
  | none => .error (.unknownEventType envelope.eventType)

/-- The kind of notification that an event causes. -/
def kind : Event → NotificationKind
  | favorited .. => .favoritedListing
  | priceDrop .. => .priceDrop
  | statusChange .. => .statusChanged

/-- The listing that an event is about. -/
def listing : Event → ListingId
  | favorited listing _ => listing
  | priceDrop listing .. => listing
  | statusChange listing .. => listing

/-- The text shown to the people concerned. -/
def message : Event → String
  | favorited _ address => "New favorite on " ++ address
  | priceDrop _ address price => "Price Drop: " ++ address ++ " was reduced to " ++ price
  | statusChange _ address status =>
      "Status Change: Status of " ++ address ++ " was changed to " ++ status

end Event

end ListingHub
