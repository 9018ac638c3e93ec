import ListingHub.Proofs.History

/-!
# The rows of one user

What a user is shown and what becomes of the user's toggles depends on the user's own rows alone,
wherever they stand among those of others. A toggle flips a row where it stands, and only the user
sees it.
-/

namespace ListingHub

namespace Store

variable {rows : List Notification} {row : Notification}

/-- Where no row is found, none is flipped. -/
theorem flipFirst_of_find?_eq_none {p : Notification → Bool} (h : rows.find? p = none) :
    flipFirst p rows = rows := by
  induction rows with
  | nil => rfl
  | cons first rows ih =>
      rw [List.find?_cons] at h
      rw [flipFirst]
      split at h
      · cases h
      · next hfirst => rw [if_neg (Bool.eq_false_iff.mp hfirst), ih h]

/-- The row that is found is flipped in its place. -/
theorem flipFirst_of_find?_eq_some {p : Notification → Bool} (h : rows.find? p = some row) :
    ∃ i, rows[i]? = some row ∧ flipFirst p rows = rows.set i row.flipped := by
  induction rows with
  | nil => cases h
  | cons first rows ih =>
      rw [List.find?_cons] at h
      rw [flipFirst]
      split at h
      · next hfirst =>
          cases h
          exact ⟨0, rfl, if_pos hfirst⟩
      · next hfirst =>
          obtain ⟨i, hrow, hset⟩ := ih h
          refine ⟨i + 1, hrow, ?_⟩
          rw [if_neg (Bool.eq_false_iff.mp hfirst), hset, List.set_cons_succ]

/-- Among the rows of a user, the same row is flipped. -/
theorem filter_flipFirst (p : Notification → Bool) (user : UserId) (rows : List Notification) :
    (flipFirst (fun row => p row && row.userId == user) rows).filter (·.userId == user) =
      flipFirst p (rows.filter (·.userId == user)) := by
  induction rows with
  | nil => rfl
  | cons first rows ih =>
      cases hown : first.userId == user <;> cases hfirst : p first <;>
        simp [flipFirst, hown, hfirst, ih]

/-- The rows of the others are not flipped. -/
theorem filter_flipFirst_of_ne (p : Notification → Bool) {user other : UserId} (h : other ≠ user)
    (rows : List Notification) :
    (flipFirst (fun row => p row && row.userId == user) rows).filter (·.userId == other) =
      rows.filter (·.userId == other) := by
  induction rows with
  | nil => rfl
  | cons first rows ih =>
      rw [flipFirst]
      split
      · next hfirst =>
          have hother : (first.userId == other) = false := by
            have hown := (Bool.and_eq_true_iff.mp hfirst).2
            rw [beq_iff_eq.mp hown]
            exact beq_eq_false_iff_ne.mpr h.symm
          simp [hother]
      · rw [List.filter_cons, List.filter_cons, ih]

/-- A row of a user is found among the user's rows. -/
theorem find?_eq_find?_listFor (store : Store) (id : NotificationId) (user : UserId) :
    store.find? id user = (store.listFor user).find? (·.id == id) := by
  have hboth (row : Notification) : (row.id == id && row.userId == user) =
      decide ((row.userId == user) = true ∧ (row.id == id) = true) := by
    rw [Bool.decide_and, Bool.decide_eq_true, Bool.decide_eq_true, Bool.and_comm]
  rw [find?, listFor, List.find?_filter]
  exact congrArg (List.find? · store.rows) (funext hboth)

variable {store : Store} {id : NotificationId} {user : UserId}

/-- Users with the same rows are answered the same. -/
theorem toggleRead_fst_congr {other : Store} (h : store.listFor user = other.listFor user)
    (id : NotificationId) : (store.toggleRead id user).1 = (other.toggleRead id user).1 := by
  rw [toggleRead, toggleRead, find?_eq_find?_listFor, find?_eq_find?_listFor, h]
  cases (other.listFor user).find? (·.id == id) <;> rfl

/-- A user's own rows after a toggle. -/
theorem listFor_toggleRead (store : Store) (id : NotificationId) (user : UserId) :
    (store.toggleRead id user).2.listFor user = flipFirst (·.id == id) (store.listFor user) := by
  have hfind := store.find?_eq_find?_listFor id user
  rw [toggleRead]
  split
  · next hnone =>
      rw [hnone] at hfind
      exact (flipFirst_of_find?_eq_none hfind.symm).symm
  · exact filter_flipFirst (·.id == id) user store.rows

/-- Nobody else's rows change. -/
theorem listFor_toggleRead_of_ne {other : UserId} (h : other ≠ user) :
    (store.toggleRead id user).2.listFor other = store.listFor other := by
  rw [toggleRead]
  split
  · rfl
  · exact filter_flipFirst_of_ne (·.id == id) h store.rows

theorem resolve_toggleRead (token : String) :
    (store.toggleRead id user).2.resolve token = store.resolve token := by
  rw [toggleRead]
  split <;> rfl

/-- A user without a row of that number is told so, whoever else may have one. -/
theorem toggleRead_of_absent (h : ∀ row ∈ store.rows, row.id = id → row.userId ≠ user) :
    store.toggleRead id user = (.error (.notificationNotFound id), store) := by
  have hnone : store.find? id user = none := by
    rw [find?, List.find?_eq_none]
    intro row hrow hboth
    rw [Bool.and_eq_true, beq_iff_eq, beq_iff_eq] at hboth
    exact h row hrow hboth.1 hboth.2
  rw [toggleRead, hnone]

/-- A user with a row of that number flips one such row, and nothing else. -/
theorem toggleRead_of_own (h : ∃ row ∈ store.rows, row.id = id ∧ row.userId = user) :
    ∃ i row, store.rows[i]? = some row ∧ row.id = id ∧ row.userId = user ∧
      (store.toggleRead id user).1 = .ok row.flipped ∧
      store.Flips i row (store.toggleRead id user).2 := by
  obtain ⟨own, hown, hid, huser⟩ := h
  have hsome : (store.find? id user).isSome := by
    rw [find?, List.find?_isSome]
    exact ⟨own, hown, by simp [hid, huser]⟩
  obtain ⟨row, hfind⟩ := Option.isSome_iff_exists.mp hsome
  have hfits := List.find?_some hfind
  rw [Bool.and_eq_true, beq_iff_eq, beq_iff_eq] at hfits
  obtain ⟨i, hrow, hset⟩ := flipFirst_of_find?_eq_some hfind
  refine ⟨i, row, hrow, hfits.1, hfits.2, ?_⟩
  rw [toggleRead, hfind]
  exact ⟨rfl, hset, rfl, rfl, rfl, rfl⟩

end Store

namespace Faults

variable (faults : Faults) (store : Store) (id : NotificationId) {user : UserId}

/-- With faults or without, nobody else's rows change. -/
theorem listFor_toggleRead_of_ne {other : UserId} (h : other ≠ user) :
    (faults.toggleRead store id user).2.listFor other = store.listFor other := by
  rw [toggleRead]
  split
  · rfl
  · exact Store.listFor_toggleRead_of_ne h

/-- What is listed are the user's own rows, all of them. -/
theorem mem_listFor {rows : List Notification} (h : faults.listFor store user = .ok rows)
    (row : Notification) : row ∈ rows ↔ row ∈ store.rows ∧ row.userId = user := by
  rw [listFor] at h
  split at h
  · cases h
  · cases h
    rw [Store.listFor, List.mem_filter, beq_iff_eq]

end Faults

end ListingHub
