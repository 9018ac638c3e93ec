import ListingHub.Json.Typed

/-!
# Identifiers

Users, listings and notifications are named by signed 64-bit keys, each in a type of its own so that
one is never taken for another. In JSON and in text a key is a bare integer.
-/

namespace ListingHub

/-- The key of a user account. -/
structure UserId where
  key : Int64
  deriving DecidableEq, Repr

/-- The key of a property listing. -/
structure ListingId where
  key : Int64
  deriving DecidableEq, Repr

/-- The key of a stored notification. -/
structure NotificationId where
  key : Int64
  deriving DecidableEq, Repr

/-- The key in decimal digits. -/
def UserId.text (id : UserId) : String := toString id.key.toInt

/-- The key in decimal digits. -/
def ListingId.text (id : ListingId) : String := toString id.key.toInt

/-- The key in decimal digits. -/
def NotificationId.text (id : NotificationId) : String := toString id.key.toInt

/-- The key as a JSON integer. -/
def UserId.toJson (id : UserId) : Json := .int id.key.toInt

/-- The key as a JSON integer. -/
def ListingId.toJson (id : ListingId) : Json := .int id.key.toInt

/-- The key as a JSON integer. -/
def NotificationId.toJson (id : NotificationId) : Json := .int id.key.toInt

/-- Reads a key. -/
def UserId.read : Json.Reader UserId := UserId.mk <$> Json.readInt64

/-- Reads a key. -/
def ListingId.read : Json.Reader ListingId := ListingId.mk <$> Json.readInt64

/-- Reads a key. -/
def NotificationId.read : Json.Reader NotificationId := NotificationId.mk <$> Json.readInt64

/-- Users in the order of their keys. -/
def UserId.le (a b : UserId) : Bool := a.key ≤ b.key

end ListingHub
