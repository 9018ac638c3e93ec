import ListingHub.Http.Body
import ListingHub.Proofs.Event.Payload
import ListingHub.Proofs.Json.Reader
import ListingHub.Proofs.Text.Quoted
import ListingHub.Table

/-!
# Rows and what is shown of them

A row is a notification exactly when its kind is the name of one of the three kinds, and then it is
the row that the notification is stored as. The notification and the body that shows it are encoded
alike, and from the encoding every value of the row is read back. A row of any other kind is refused
by that kind.
-/

namespace ListingHub

namespace NotificationRow

open Json (Fits)

/-- The row that a notification is stored as. -/
def ofNotification (n : Notification) : NotificationRow where
  id := n.id.key
  userId := n.userId.key
  listingId := n.listingId.key
  kind := n.kind.name
  message := n.message
  isRead := n.isRead
  createdAt := n.createdAt

/-- The values of a row under their names, in the order of the names. -/
def members (row : NotificationRow) : List (String × Json) :=
  [("created_at", .str row.createdAt.text), ("id", .int row.id.toInt),
    ("is_read", .bool row.isRead), ("listing_id", .int row.listingId.toInt),
    ("message", .str row.message), ("type", .str row.kind), ("user_id", .int row.userId.toInt)]

variable {row : NotificationRow} {n : Notification}

/-- A row is the notification that is stored as this row. -/
theorem notification_eq_ok_iff : row.notification = .ok n ↔ ofNotification n = row := by
  rcases row with ⟨id, user, listing, name, message, isRead, createdAt⟩
  constructor
  · intro h
    unfold notification at h
    split at h
    · next kind hkind =>
        obtain rfl := NotificationKind.ofName?_eq_some_iff.mp hkind
        cases h
        rfl
    · cases h
  · intro h
    cases h
    rw [notification, NotificationKind.ofName?_eq_some_iff.mpr rfl]

/-- A row is no notification when no kind has its name, and it is refused by that name. -/
theorem notification_eq_error_iff {failure : Failure} :
    row.notification = .error failure ↔ (∀ kind : NotificationKind, kind.name ≠ row.kind) ∧
      failure = .persistence ("unknown notification type " ++ Text.quoted row.kind) := by
  rw [← NotificationKind.ofName?_eq_none_iff]
  unfold notification
  split
  · next kind hkind => simp [hkind]
  · next hkind => simp [hkind, eq_comm]

/-- A row of a kind's name is a notification. -/
theorem exists_notification_iff :
    (∃ n, row.notification = .ok n) ↔ ∃ kind : NotificationKind, kind.name = row.kind := by
  constructor
  · rintro ⟨n, hn⟩
    rw [← notification_eq_ok_iff.mp hn]
    exact ⟨n.kind, rfl⟩
  · rintro ⟨kind, hkind⟩
    refine ⟨⟨⟨row.id⟩, ⟨row.userId⟩, ⟨row.listingId⟩, kind, row.message, row.isRead,
      row.createdAt⟩, notification_eq_ok_iff.mpr ?_⟩
    rw [ofNotification, hkind]

/-- A refusal names the kind that it is for. -/
theorem kind_eq_of_notification_eq_error {other : NotificationRow} {failure : Failure}
    (h : row.notification = .error failure) (hother : other.notification = .error failure) :
    other.kind = row.kind := by
  have hreason := (notification_eq_error_iff.mp h).2.symm.trans
    (notification_eq_error_iff.mp hother).2
  rw [Failure.persistence.injEq, String.append_right_inj, Text.quoted_inj] at hreason
  exact hreason.symm

end NotificationRow

theorem Json.fits_key (depth : Nat) (key : Int64) : Fits depth (.int key.toInt) := by
  have hnumber : IsNumber (.int key.toInt) :=
    ⟨key.le_toInt, Int.lt_trans key.toInt_lt (by decide)⟩
  exact hnumber.fits depth

/-- The body that shows a notification says the same as the notification's own record. -/
theorem Http.NotificationBody.toJson_ofNotification (n : Notification) :
    (ofNotification n).toJson = n.toJson := by
  rw [Notification.toJson, NotificationKind.toJson, NotificationKind.variant_eq_name]
  rfl

/-- The values of a notification are read back from its record. -/
theorem Notification.ofBytes_toJson (n : Notification) :
    Json.ofBytes (Utf8.ofText n.toJson.text) =
      .ok (.obj (NotificationRow.ofNotification n).members) := by
  rw [Notification.toJson, Json.ofBytes_text_obj]
  · simp only [Json.ofMembers, List.foldl_cons, List.foldl_nil, Json.put, String.reduceLT,
      String.reduceEq, ↓reduceIte, NotificationId.toJson, UserId.toJson, ListingId.toJson,
      NotificationKind.toJson, NotificationKind.variant_eq_name, NotificationRow.members,
      NotificationRow.ofNotification]
  · have hkey := Json.fits_key (Json.depthLimit - 1)
    simp only [List.forall_mem_cons]
    exact ⟨hkey _, hkey _, hkey _, trivial, trivial, trivial, trivial, List.forall_mem_nil _⟩
  · simp [UserId.toJson, ListingId.toJson, NotificationId.toJson, NotificationKind.toJson]

namespace NotificationRow

/-- A row is a notification exactly when its kind is the name of one of the three kinds. The
notification is then encoded to the same bytes as the body that shows it, and these bytes are read
back as an object with every value of the row under its name and nothing else. Any other row is a
failure of the store whose reason is the quoted kind, so that rows which fail alike are of one
kind. -/
theorem notification_read_back (row : NotificationRow) :
    ((∃ n, row.notification = .ok n) ↔ ∃ kind : NotificationKind, kind.name = row.kind) ∧
    (∀ n, row.notification = .ok n →
      Utf8.ofText n.toJson.text =
        Utf8.ofText (Http.NotificationBody.ofNotification n).toJson.text ∧
      Json.ofBytes (Utf8.ofText n.toJson.text) = .ok (.obj row.members)) ∧
    ((∀ kind : NotificationKind, kind.name ≠ row.kind) → row.notification =
      .error (.persistence ("unknown notification type " ++ Text.quoted row.kind))) ∧
    ∀ (other : NotificationRow) (failure : Failure), row.notification = .error failure →
      other.notification = .error failure → other.kind = row.kind := by
  refine ⟨exists_notification_iff, fun n hn => ⟨?_, ?_⟩, fun hnone => ?_, ?_⟩
  · rw [Http.NotificationBody.toJson_ofNotification]
  · rw [n.ofBytes_toJson, notification_eq_ok_iff.mp hn]
  · exact notification_eq_error_iff.mpr ⟨hnone, rfl⟩
  · exact fun other failure => kind_eq_of_notification_eq_error

/-- The least and the greatest key, a message that is escaped, and a leap second before 1970. -/
def outlying : NotificationRow where
  id := Int64.minValue
  userId := Int64.maxValue
  listingId := 0
  kind := "price_drop_notification"
  message := "\"é\\\x01"
  isRead := true
  createdAt := ⟨-1, 1_500_000_000⟩

/-- A row of a kind that differs from a name by its case. -/
def miscased : NotificationRow :=
  { outlying with kind := "Price_drop_notification" }

theorem notification_read_back_outlying :
    (∃ n, outlying.notification = .ok n ∧
      Utf8.ofText n.toJson.text =
        Utf8.ofText (Http.NotificationBody.ofNotification n).toJson.text ∧
      Json.ofBytes (Utf8.ofText n.toJson.text) = .ok (.obj
        [("created_at", .str "1969-12-31T23:59:60.500Z"), ("id", .int (-9_223_372_036_854_775_808)),
          ("is_read", .bool true), ("listing_id", .int 0), ("message", .str "\"é\\\x01"),
          ("type", .str "price_drop_notification"),
          ("user_id", .int 9_223_372_036_854_775_807)])) ∧
    miscased.notification =
      .error (.persistence "unknown notification type \"Price_drop_notification\"") := by
  have hnone : ∀ kind : NotificationKind, kind.name ≠ miscased.kind := by
    intro kind
    cases kind <;> decide
  have hread := notification_read_back outlying
  obtain ⟨n, hn⟩ := hread.1.mpr ⟨.priceDrop, rfl⟩
  obtain ⟨hsame, hback⟩ := hread.2.1 n hn
  have hquoted : Text.quoted miscased.kind = "\"Price_drop_notification\"" := by decide +kernel
  refine ⟨⟨n, hn, hsame, hback.trans rfl⟩, ?_⟩
  rw [(notification_read_back miscased).2.2.1 hnone, hquoted]
  rfl

end NotificationRow

end ListingHub
