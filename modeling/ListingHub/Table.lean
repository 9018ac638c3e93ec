import ListingHub.Failure
import ListingHub.Notification
import ListingHub.Text.Quoted

/-!
# Database rows

Rows as the database holds them, where kinds and roles are plain text, and their conversion. Text
that names no kind or no role is a failure of the store.
-/

namespace ListingHub

/-- A row of the notifications table. -/
structure NotificationRow where
  id : Int64
  userId : Int64
  listingId : Int64
  kind : String
  message : String
  isRead : Bool
  createdAt : Timestamp

/-- The notification of a row. -/
def NotificationRow.notification (row : NotificationRow) : Except Failure Notification :=
  match NotificationKind.ofName? row.kind with
  | some kind =>
      .ok ⟨⟨row.id⟩, ⟨row.userId⟩, ⟨row.listingId⟩, kind, row.message, row.isRead, row.createdAt⟩
  | none => .error (.persistence ("unknown notification type " ++ Text.quoted row.kind))

/-- A session joined with its user. -/
structure SessionRow where
  userId : Int64
  role : String

/-- The identity of a row. -/
def SessionRow.identity (row : SessionRow) : Except Failure Identity :=
  match Role.ofName? row.role with
  | some role => .ok ⟨⟨row.userId⟩, role⟩
  | none => .error (.persistence (Role.unknownMessage row.role))

/-- What is asked of the database. -/
inductive DatabaseCall where
  | create
  | list
  | toggle
  | agentOf (listing : ListingId)
  | interested (listing : ListingId)
  | resolve
  | migrate

/-- A failed call. Lookups name their listing, migrations say what was going on. -/
def DatabaseCall.failure (fault : DatabaseFault) : DatabaseCall → Failure
  | .create | .list | .toggle | .resolve => fault.failure
  | .agentOf listing | .interested listing => .lookupFailed listing fault.message
  | .migrate => .persistence ("while executing migrations: " ++ fault.message)

end ListingHub
