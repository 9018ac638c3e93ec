import ListingHub.Recording

/-!
# Rows are kept

Whatever is done to a store, the rows that it held stay in their places, and nothing in them changes
but the read flag. So what a user was told once stays told.
-/

namespace ListingHub

/-- A row as it was stored. -/
def Notification.unread (row : Notification) : Notification :=
  { row with isRead := false }

namespace Store

variable {before after : Store}

/-- Rows may have been added and read flags flipped. -/
def Grows (before after : Store) : Prop :=
  before.rows.map Notification.unread <+: after.rows.map Notification.unread

/-- How many rows tell a user this. -/
def told (store : Store) (user : UserId) (kind : NotificationKind) (message : String) : Nat :=
  store.rows.countP fun row => row.userId == user && row.kind == kind && row.message == message

theorem grows_of_rows (h : after.rows = before.rows) : before.Grows after := by
  rewrite [Grows, h]
  exact List.prefix_refl _

theorem Grows.refl (store : Store) : store.Grows store :=
  grows_of_rows rfl

theorem grows_create (store : Store) (draft : Draft) (now : Timestamp) :
    store.Grows (store.create draft now).2 := by
  rw [Grows, rows_create, List.map_append]
  exact List.prefix_append _ _

theorem grows_toggleRead (store : Store) (id : NotificationId) (user : UserId) :
    store.Grows (store.toggleRead id user).2 := by
  unfold toggleRead
  split
  · exact .refl store
  · have hkept := map_flipFirst (fun row => row.id == id && row.userId == user)
      Notification.unread (fun _ => rfl) store.rows
    rewrite [Grows, flip, hkept]
    exact List.prefix_refl _

theorem grows_addFavorite (store : Store) (user : UserId) (listing : ListingId) :
    store.Grows (store.addFavorite user listing) := by
  apply grows_of_rows
  unfold addFavorite
  split <;> rfl

/-- What was told stays told. -/
theorem Grows.told_le (h : before.Grows after) (user : UserId) (kind : NotificationKind)
    (message : String) : before.told user kind message ≤ after.told user kind message := by
  -- The read flag does not matter for what a row tells.
  have hunread : ∀ store : Store, store.told user kind message =
      (store.rows.map Notification.unread).countP fun row =>
        row.userId == user && row.kind == kind && row.message == message := by
    intro store
    rw [List.countP_map]
    rfl
  rw [hunread, hunread]
  exact h.sublist.countP_le

/-- A new row tells its user once more. -/
theorem told_create (store : Store) (draft : Draft) (now : Timestamp) (user : UserId)
    (kind : NotificationKind) (message : String) :
    (store.create draft now).2.told user kind message = store.told user kind message +
      if draft.userId = user ∧ draft.kind = kind ∧ draft.message = message then 1 else 0 := by
  rw [told, rows_create, List.countP_append, List.countP_singleton]
  simp [told, create, Notification.ofDraft, and_assoc]

end Store

theorem Faults.grows_create (faults : Faults) (store : Store) (draft : Draft) (now : Timestamp) :
    store.Grows (faults.create store draft now).2 := by
  unfold Faults.create
  split
  · exact .refl store
  · exact store.grows_create draft now

/-- A step of a recording stores at most. -/
theorem Recording.grows_step (faults : Faults) (event : Event) (now : Timestamp) (store : Store)
    (work : Recording) : store.Grows (work.step faults event now store).2 := by
  unfold step
  split
  · split <;> exact .refl store
  · exact .refl store
  · next recipients user todo =>
      have hgrows := faults.grows_create store (event.draft user) now
      split
      · next hcreate =>
          rw [hcreate] at hgrows
          exact hgrows
      · next hcreate =>
          rw [hcreate] at hgrows
          exact hgrows
  · exact .refl store

theorem Faults.grows_toggleRead (faults : Faults) (store : Store) (id : NotificationId)
    (user : UserId) : store.Grows (faults.toggleRead store id user).2 := by
  unfold Faults.toggleRead
  split
  · exact .refl store
  · exact store.grows_toggleRead id user

end ListingHub
