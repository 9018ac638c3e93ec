import ListingHub.Event

/-!
# The store

Notifications, who is the agent of a listing, who favorited it, and the sessions, all in memory.
Rows are kept oldest first and numbered from one; nothing is ever deleted. Of the agents and
sessions of one key the newest counts.

`Faults` is what goes wrong in front of a store: reasons for which an operation fails, and the time
it takes before it begins.
-/

namespace ListingHub

/-- The number of the row that has so many rows before it. -/
def NotificationId.after (rows : Nat) : NotificationId :=
  ⟨Int64.ofNat (rows + 1)⟩

/-- Notifications, agents, favorites and sessions. -/
structure Store where
  rows : List Notification
  /-- The number of rows that were stored. -/
  stored : Nat
  agents : List (ListingId × UserId)
  favorites : List (ListingId × UserId)
  sessions : List (String × Identity)
  numbered : rows.map (·.id) = (List.range stored).map NotificationId.after
  favorites_nodup : favorites.Nodup

/-- What goes wrong with a store: why an operation fails, and how many nanoseconds it takes before
it begins. -/
structure Faults where
  createFails : UserId → Option String
  createDelay : UserId → Nat
  lookupFails : ListingId → Option String
  lookupDelay : ListingId → Nat
  listFails : Option String
  toggleFails : Option String
  resolveFails : Option String

/-- Nothing goes wrong. -/
def Faults.none : Faults where
  createFails := fun _ => .none
  createDelay := fun _ => 0
  lookupFails := fun _ => .none
  lookupDelay := fun _ => 0
  listFails := .none
  toggleFails := .none
  resolveFails := .none

namespace Store

/-- Nothing is stored. -/
def empty : Store where
  rows := []
  stored := 0
  agents := []
  favorites := []
  sessions := []
  numbered := rfl
  favorites_nodup := .nil

/-- Makes a user the agent of a listing. -/
def setAgent (store : Store) (listing : ListingId) (agent : UserId) : Store :=
  { store with agents := (listing, agent) :: store.agents }

/-- Records that a user favorited a listing. -/
def addFavorite (store : Store) (user : UserId) (listing : ListingId) : Store :=
  if hin : (listing, user) ∈ store.favorites then store
  else
    { store with
      favorites := store.favorites ++ [(listing, user)]
      favorites_nodup := List.nodup_append.mpr ⟨store.favorites_nodup, by simp, by
        rintro entry hold _ hnew rfl
        exact hin (List.mem_singleton.mp hnew ▸ hold)⟩ }

/-- Issues a session token. -/
def addSession (store : Store) (token : String) (identity : Identity) : Store :=
  { store with sessions := (token, identity) :: store.sessions }

/-- Stores a draft as an unread row with the next number. -/
def create (store : Store) (draft : Draft) (now : Timestamp) : Notification × Store :=
  let row := Notification.ofDraft (.after store.stored) draft now
  (row, { store with
    rows := store.rows ++ [row]
    stored := store.stored + 1
    numbered := by
      rw [List.range_succ, List.map_append, List.map_append, store.numbered]
      rfl })

theorem rows_create (store : Store) (draft : Draft) (now : Timestamp) :
    (store.create draft now).2.rows = store.rows ++ [(store.create draft now).1] := rfl

/-- The rows of a user, oldest first. -/
def listFor (store : Store) (user : UserId) : List Notification :=
  store.rows.filter fun row => row.userId == user

/-- A row that is the user's own. -/
def find? (store : Store) (id : NotificationId) (user : UserId) : Option Notification :=
  store.rows.find? fun row => row.id == id && row.userId == user

/-- Flips the read flag of the first row that satisfies `p`. -/
def flipFirst (p : Notification → Bool) : List Notification → List Notification
  | [] => []
  | row :: rows =>
      if p row then { row with isRead := !row.isRead } :: rows else row :: flipFirst p rows

/-- Only read flags are flipped. -/
theorem map_flipFirst {α : Type} (p : Notification → Bool) (f : Notification → α)
    (hf : ∀ row, f { row with isRead := !row.isRead } = f row) (rows : List Notification) :
    (flipFirst p rows).map f = rows.map f := by
  induction rows with
  | nil => rfl
  | cons row rows ih =>
      unfold flipFirst
      split
      · simp [hf]
      · simp [ih]

/-- The store with the read flag of the first row that satisfies `p` flipped. -/
def flip (store : Store) (p : Notification → Bool) : Store :=
  { store with
    rows := flipFirst p store.rows
    numbered := (map_flipFirst p _ (fun _ => rfl) store.rows).trans store.numbered }

/-- Flips the read flag of a row that is the user's own and returns the row. -/
def toggleRead (store : Store) (id : NotificationId) (user : UserId) :
    Except Failure Notification × Store :=
  match store.find? id user with
  | none => (.error (.notificationNotFound id), store)
  | some row =>
      (.ok { row with isRead := !row.isRead },
        store.flip fun row => row.id == id && row.userId == user)

/-- The agent of a listing. -/
def agentOf (store : Store) (listing : ListingId) : Except Failure UserId :=
  match store.agents.lookup listing with
  | some agent => .ok agent
  | none => .error (.listingNotFound listing)

/-- The users who favorited a listing, in the order of their keys. -/
def interested (store : Store) (listing : ListingId) : List UserId :=
  ((store.favorites.filter fun entry => entry.1 == listing).map (·.2)).mergeSort UserId.le

/-- The identity that a session token was issued for. -/
def resolve (store : Store) (token : String) : Option Identity :=
  store.sessions.lookup token

end Store

namespace Faults

/-- Looks up the agent of a listing. -/
def agentOf (faults : Faults) (store : Store) (listing : ListingId) : Except Failure UserId :=
  match faults.lookupFails listing with
  | some reason => .error (.lookupFailed listing reason)
  | .none => store.agentOf listing

/-- Looks up the users who favorited a listing. -/
def interested (faults : Faults) (store : Store) (listing : ListingId) :
    Except Failure (List UserId) :=
  match faults.lookupFails listing with
  | some reason => .error (.lookupFailed listing reason)
  | .none => .ok (store.interested listing)

/-- Stores a draft. -/
def create (faults : Faults) (store : Store) (draft : Draft) (now : Timestamp) :
    Except Failure Notification × Store :=
  match faults.createFails draft.userId with
  | some reason => (.error (.persistence reason), store)
  | .none => ((.ok (store.create draft now).1), (store.create draft now).2)

/-- Lists the rows of a user. -/
def listFor (faults : Faults) (store : Store) (user : UserId) :
    Except Failure (List Notification) :=
  match faults.listFails with
  | some reason => .error (.persistence reason)
  | .none => .ok (store.listFor user)

/-- Flips the read flag of a row. -/
def toggleRead (faults : Faults) (store : Store) (id : NotificationId) (user : UserId) :
    Except Failure Notification × Store :=
  match faults.toggleFails with
  | some reason => (.error (.persistence reason), store)
  | .none => store.toggleRead id user

/-- Resolves a session token. -/
def resolve (faults : Faults) (store : Store) (token : String) :
    Except Failure (Option Identity) :=
  match faults.resolveFails with
  | some reason => .error (.persistence reason)
  | .none => .ok (store.resolve token)

end Faults

end ListingHub
