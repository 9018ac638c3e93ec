import ListingHub.Proofs.Recipients
import Mathlib.Algebra.GroupWithZero.Nat

/-!
# How recording an event ends

Either every recipient has a row within the limit, or the work stops at a first recipient: the
pause before the row outlasts the limit, or the row cannot be stored. The recipients before have
their rows then, and nothing else was done to the store.
-/

namespace ListingHub

/-- Ids below the limit of their type count up from one. -/
theorem NotificationId.toInt_after {rows : Nat} (h : rows + 1 < 2 ^ 63) :
    (NotificationId.after rows).key.toInt = rows + 1 :=
  Int64.toInt_ofNat_of_lt h

/-- Below the limit no two rows have one id. -/
theorem NotificationId.after_injective {rows others : Nat} (hrows : rows + 1 < 2 ^ 63)
    (hothers : others + 1 < 2 ^ 63) (h : NotificationId.after rows = .after others) :
    rows = others := by
  have hkeys : (NotificationId.after rows).key.toInt = (NotificationId.after others).key.toInt := by
    rw [h]
  rw [toInt_after hrows, toInt_after hothers] at hkeys
  omega

/-- Consecutive ids below the limit are consecutive numbers. -/
theorem NotificationId.map_toInt_after {rows count : Nat} (h : rows + count < 2 ^ 63) :
    ((List.range' rows count).map NotificationId.after).map (·.key.toInt) =
      (List.range' (rows + 1) count).map Int.ofNat := by
  rw [List.map_map, List.range'_succ_left, List.map_map]
  apply List.map_congr_left
  intro row hrow
  have hlast := (List.mem_range'_1.mp hrow).2
  exact toInt_after (by omega)

namespace Store

theorem stored_eq_length (store : Store) : store.stored = store.rows.length := by
  simpa using (congrArg List.length store.numbered).symm

/-- Rows that come after those of a store are numbered on from them. -/
theorem ids_of_append {before after : Store} {ids : List NotificationId}
    (h : after.rows.map (·.id) = before.rows.map (·.id) ++ ids) :
    ids = (List.range' before.rows.length ids.length).map NotificationId.after := by
  have hlength : after.rows.length = before.rows.length + ids.length := by
    simpa using congrArg List.length h
  rw [after.numbered, before.numbered, after.stored_eq_length, before.stored_eq_length, hlength,
    List.range_eq_range', List.range_eq_range', ← List.range'_append_1, List.map_append,
    Nat.zero_add] at h
  exact (List.append_cancel_left h).symm

/-- Unread rows of an event were added for users, one each and in their order, and nothing else was
done to the store. -/
structure Extends (event : Event) (users : List UserId) (before after : Store) : Prop where
  rows : ∃ new, after.rows = before.rows ++ new ∧ new.map (·.userId) = users ∧
    ∀ row ∈ new, row.listingId = event.listing ∧ row.kind = event.kind ∧
      row.message = event.message ∧ row.isRead = false
  stored : after.stored = before.stored + users.length
  agents : after.agents = before.agents
  favorites : after.favorites = before.favorites
  sessions : after.sessions = before.sessions

namespace Extends

variable {event : Event} {users others : List UserId} {before between after : Store}

theorem refl (store : Store) : Extends event [] store store where
  rows := ⟨[], by simp⟩
  stored := rfl
  agents := rfl
  favorites := rfl
  sessions := rfl

theorem trans (hfirst : Extends event users before between)
    (hlast : Extends event others between after) :
    Extends event (users ++ others) before after where
  rows := by
    obtain ⟨new, hnew, husers, hdata⟩ := hfirst.rows
    obtain ⟨more, hmore, hothers, hmoredata⟩ := hlast.rows
    refine ⟨new ++ more, ?_, ?_, ?_⟩
    · rw [hmore, hnew, List.append_assoc]
    · rw [List.map_append, husers, hothers]
    · intro row hrow
      rcases List.mem_append.mp hrow with hin | hin
      · exact hdata row hin
      · exact hmoredata row hin
  stored := by rw [hlast.stored, hfirst.stored, List.length_append, Nat.add_assoc]
  agents := hlast.agents.trans hfirst.agents
  favorites := hlast.favorites.trans hfirst.favorites
  sessions := hlast.sessions.trans hfirst.sessions

/-- Storing the draft of an event adds a row for its user. -/
theorem create (store : Store) (user : UserId) (now : Timestamp) :
    Extends event [user] store (store.create (event.draft user) now).2 where
  rows := ⟨[(store.create (event.draft user) now).1], rfl, rfl, by
    intro row hrow
    obtain rfl := List.mem_singleton.mp hrow
    exact ⟨rfl, rfl, rfl, rfl⟩⟩
  stored := rfl
  agents := rfl
  favorites := rfl
  sessions := rfl

/-- For nobody nothing was done. -/
theorem eq_of_nil (h : Extends event [] before after) : after = before := by
  obtain ⟨new, hnew, husers, -⟩ := h.rows
  obtain rfl := List.map_eq_nil_iff.mp husers
  rw [List.append_nil] at hnew
  have hstored : after.stored = before.stored := h.stored
  have hagents := h.agents
  have hfavorites := h.favorites
  have hsessions := h.sessions
  cases before
  cases after
  simp_all

/-- The new rows are numbered on from the old ones. -/
theorem ids (h : Extends event users before after) {new : List Notification}
    (hnew : after.rows = before.rows ++ new) :
    new.map (·.id) = (List.range' before.rows.length users.length).map NotificationId.after := by
  have hlength : new.length = users.length := by
    have hstored := h.stored
    rw [after.stored_eq_length, before.stored_eq_length, hnew, List.length_append] at hstored
    omega
  have hids := ids_of_append (congrArg (List.map (·.id)) hnew |>.trans List.map_append)
  rw [List.length_map, hlength] at hids
  exact hids

/-- Rows that were added below the limit have consecutive ids that no older row has. -/
theorem ids_fresh (h : Extends event users before after)
    (hroom : before.rows.length + users.length < 2 ^ 63) {new : List Notification}
    (hnew : after.rows = before.rows ++ new) :
    new.map (fun row => row.id.key.toInt) =
        (List.range' (before.rows.length + 1) users.length).map Int.ofNat ∧
      ∀ row ∈ new, row.id ∉ before.rows.map (·.id) := by
  have hids := h.ids hnew
  constructor
  · rw [← NotificationId.map_toInt_after hroom, ← hids, List.map_map]
    rfl
  · intro row hrow hold
    have hin := List.mem_map_of_mem (f := (·.id)) hrow
    rw [hids] at hin
    rw [before.numbered, before.stored_eq_length] at hold
    obtain ⟨rows, hrows, hafter⟩ := List.mem_map.mp hin
    obtain ⟨others, hothers, hbefore⟩ := List.mem_map.mp hold
    have hbounds := List.mem_range'_1.mp hrows
    have hbound := List.mem_range.mp hothers
    have hsame := NotificationId.after_injective (by omega) (by omega)
      (hafter.trans hbefore.symm)
    omega

end Extends

end Store

/-- A pause that ends within the limit lasts to its end. -/
theorem pause_of_le {limit : Limit} {now delay : Instant} (h : now + delay ≤ limit.expires) :
    pause (some limit) now delay = .ok (now + delay) := by
  simp only [pause]
  rw [if_neg fun hlate => Nat.not_lt.mpr h hlate.2]

/-- A pause that outlasts the limit fails with it. -/
theorem pause_of_lt {limit : Limit} {now delay : Instant} (hnow : now ≤ limit.expires)
    (h : limit.expires < now + delay) : pause (some limit) now delay = .error limit.failure := by
  have hdelay : 0 < delay := Nat.lt_of_add_lt_add_left (Nat.lt_of_le_of_lt hnow h)
  simp only [pause]
  rw [if_pos ⟨hdelay, h⟩]

namespace Faults

variable {faults : Faults} {event : Event} {start : Timestamp} {limit : Limit}

/-- How long the pauses before the rows of users last. -/
def storingTime (faults : Faults) (users : List UserId) : Nat :=
  (users.map faults.createDelay).sum

/-- The work up to the rows of users takes this long: the lookup and the rows. -/
def elapsed (faults : Faults) (event : Event) (users : List UserId) : Nat :=
  faults.lookupDelay event.listing + faults.storingTime users

@[simp]
theorem storingTime_nil (faults : Faults) : faults.storingTime [] = 0 := rfl

@[simp]
theorem storingTime_cons (faults : Faults) (user : UserId) (users : List UserId) :
    faults.storingTime (user :: users) = faults.createDelay user + faults.storingTime users := rfl

@[simp]
theorem storingTime_append (faults : Faults) (users others : List UserId) :
    faults.storingTime (users ++ others) =
      faults.storingTime users + faults.storingTime others := by
  simp [storingTime]

/-- From the lookup on the work goes on with the rows. -/
theorem add_elapsed (faults : Faults) (event : Event) (users : List UserId) (now : Instant) :
    now + faults.lookupDelay event.listing + faults.storingTime users =
      now + faults.elapsed event users :=
  Nat.add_assoc _ _ _

/-- More rows take longer. -/
theorem elapsed_le_append (faults : Faults) (event : Event) (users others : List UserId) :
    faults.elapsed event users ≤ faults.elapsed event (users ++ others) := by
  simp only [elapsed, storingTime_append]
  omega

/-- Users whose rows are stored in time are passed over, and the rest is stored afterwards. -/
theorem storeAll_append (event : Event) (start : Timestamp) (limit : Limit) {done : List UserId}
    (hfree : ∀ user ∈ done, faults.createFails user = .none)
    {now : Instant} (htime : now + faults.storingTime done ≤ limit.expires) (store : Store) :
    ∃ after, store.Extends event done after ∧ ∀ rest,
      faults.storeAll event start (some limit) (done ++ rest) now store =
        faults.storeAll event start (some limit) rest (now + faults.storingTime done) after := by
  induction done generalizing now store with
  | nil => exact ⟨store, .refl store, fun rest => rfl⟩
  | cons user done ih =>
      rw [storingTime_cons] at htime
      have hpause : pause (some limit) now (faults.createDelay user) =
          .ok (now + faults.createDelay user) :=
        pause_of_le (Nat.le_trans (Nat.add_le_add_left (Nat.le_add_right _ _) _) htime)
      have hcreate : faults.createFails user = .none := hfree user List.mem_cons_self
      let next := (store.create (event.draft user) (start.later (now + faults.createDelay user))).2
      obtain ⟨after, hafter, hrest⟩ := ih
        (fun other hin => hfree other (List.mem_cons_of_mem _ hin))
        (show now + faults.createDelay user + faults.storingTime done ≤ limit.expires by
          rw [Nat.add_assoc]
          exact htime) next
      refine ⟨after, (Store.Extends.create store user _).trans hafter, ?_⟩
      intro rest
      rw [storingTime_cons, ← Nat.add_assoc, ← hrest rest]
      simp only [List.cons_append, storeAll, hpause, create, Event.draft, hcreate]
      rfl

/-- Storing stops at a user whose pause outlasts the limit. -/
theorem storeAll_of_late {user : UserId} {now : Instant} (hnow : now ≤ limit.expires)
    (hlate : limit.expires < now + faults.createDelay user) (todo : List UserId) (store : Store) :
    faults.storeAll event start (some limit) (user :: todo) now store =
      (.error limit.failure, store) := by
  simp only [storeAll, pause_of_lt hnow hlate]

/-- Storing stops at a user whose row cannot be stored. -/
theorem storeAll_of_fails {user : UserId} {now : Instant} {reason : String}
    (htime : now + faults.createDelay user ≤ limit.expires)
    (hfails : faults.createFails user = some reason) (todo : List UserId) (store : Store) :
    faults.storeAll event start (some limit) (user :: todo) now store =
      (.error (.persistence reason), store) := by
  simp only [storeAll, pause_of_le htime, create, Event.draft, hfails]

/-- Either the rows of all users can be stored in time, or there is a first user for whom it is too
late or whose row cannot be stored. -/
theorem storing_cases (faults : Faults) (users : List UserId) {now expires : Nat}
    (hnow : now ≤ expires) :
    ((∀ user ∈ users, faults.createFails user = .none) ∧
      now + faults.storingTime users ≤ expires) ∨
    ∃ done user todo, users = done ++ user :: todo ∧
      (∀ other ∈ done, faults.createFails other = .none) ∧
      now + faults.storingTime done ≤ expires ∧
      (expires < now + faults.storingTime (done ++ [user]) ∨
        now + faults.storingTime (done ++ [user]) ≤ expires ∧
          ∃ reason, faults.createFails user = some reason) := by
  induction users generalizing now with
  | nil => exact .inl ⟨by simp, hnow⟩
  | cons user users ih =>
      rcases Nat.lt_or_ge expires (now + faults.createDelay user) with hlate | htime
      · exact .inr ⟨[], user, users, rfl, by simp, hnow, .inl (by simpa using hlate)⟩
      cases hfails : faults.createFails user with
      | some reason =>
          exact .inr ⟨[], user, users, rfl, by simp, hnow,
            .inr ⟨by simpa using htime, reason, hfails⟩⟩
      | none =>
          rcases ih htime with ⟨hfree, hall⟩ | ⟨done, stop, todo, rfl, hfree, hdone, hstop⟩
          · exact .inl ⟨List.forall_mem_cons.mpr ⟨hfails, hfree⟩,
              by simpa [Nat.add_assoc] using hall⟩
          · refine .inr ⟨user :: done, stop, todo, rfl, ?_, ?_, ?_⟩
            · exact List.forall_mem_cons.mpr ⟨hfails, hfree⟩
            · simpa [Nat.add_assoc] using hdone
            · simpa [Nat.add_assoc] using hstop

/-- A lookup that outlasts the limit ends the recording. -/
theorem record_of_late {now : Instant} (hnow : now ≤ limit.expires)
    (hlate : limit.expires < now + faults.lookupDelay event.listing) (store : Store) :
    faults.record event start (some limit) now store = (.error limit.failure, store) := by
  simp only [record, pause_of_lt hnow hlate]

/-- A lookup that fails ends the recording. -/
theorem record_of_lookup_fails {now : Instant} {store : Store} {failure : Failure}
    (htime : now + faults.lookupDelay event.listing ≤ limit.expires)
    (hfails : faults.recipients store event = .error failure) :
    faults.record event start (some limit) now store = (.error failure, store) := by
  simp only [record, pause_of_le htime, hfails]

/-- After the lookup the rows of the recipients are stored. -/
theorem record_of_lookup {now : Instant} {store : Store} {users : List UserId}
    (htime : now + faults.lookupDelay event.listing ≤ limit.expires)
    (hlookup : faults.recipients store event = .ok users) :
    faults.record event start (some limit) now store =
      ((faults.storeAll event start (some limit) users
        (now + faults.lookupDelay event.listing) store).1.map fun _ => users,
      (faults.storeAll event start (some limit) users
        (now + faults.lookupDelay event.listing) store).2) := by
  simp only [record, pause_of_le htime, hlookup]

end Faults

end ListingHub
