import ListingHub.Proofs.History
import ListingHub.Proofs.Rows

/-!
# Recordings that run at once

Any number of events are recorded over one store, and between the steps of a recording those of the
others are made and other operations are carried out. A step is the lookup of the recipients or one
row. The new rows are an interleaving of what the recordings store: each adds one row for every user
of its own lookup, in the order of their keys, wherever the rows of the others stand.
-/

namespace ListingHub

namespace Store

/-- An operation that creates nothing changes read flags at most. -/
theorem Operation.unread_apply {operation : Operation} (h : operation.created? = none)
    (store : Store) : (operation.apply store).rows.map Notification.unread =
      store.rows.map Notification.unread := by
  cases operation with
  | create draft now => simp [created?] at h
  | toggleRead id user =>
      simp only [apply, Store.toggleRead]
      split
      · rfl
      · exact map_flipFirst _ Notification.unread (fun _ => rfl) store.rows
  | addFavorite user listing =>
      simp only [apply, Store.addFavorite]
      split <;> rfl
  | setAgent | addSession | listFor | agentOf | interested | resolve => rfl

end Store

namespace Recording

/-- A recording has stored rows for these users so far. -/
inductive Stored : Recording → List UserId → Prop
  | lookingUp : Stored lookingUp []
  | storing (done todo : List UserId) : Stored (storing (done ++ todo) todo) done
  | finished (users : List UserId) : Stored (finished (.ok users)) users
  | failed (failure : Failure) : Stored (finished (.error failure)) []

/-- What the lookup of a recording said. -/
def answer? : Recording → Option (Except Failure (List UserId))
  | lookingUp => none
  | storing recipients _ => some (.ok recipients)
  | finished outcome => some outcome

theorem stored_ofTodo (done todo : List UserId) : (ofTodo (done ++ todo) todo).Stored done := by
  cases todo with
  | nil =>
      rw [List.append_nil]
      exact .finished done
  | cons user todo => exact .storing done (user :: todo)

@[simp]
theorem answer?_ofTodo (recipients todo : List UserId) :
    (ofTodo recipients todo).answer? = some (.ok recipients) := by
  cases todo <;> rfl

variable {work : Recording}

/-- A step stores nothing or the row of one more user. -/
theorem Stored.step {done : List UserId} (h : work.Stored done) (event : Event) (now : Timestamp)
    (store : Store) :
    (work.step .none event now store).2 = store ∧
        (work.step .none event now store).1.Stored done ∨
    ∃ user, (work.step .none event now store).2 = (store.create (event.draft user) now).2 ∧
      (work.step .none event now store).1.Stored (done ++ [user]) := by
  cases h with
  | lookingUp =>
      left
      simp only [Recording.step]
      split
      · next users _ => exact ⟨rfl, stored_ofTodo [] users⟩
      · next failure _ => exact ⟨rfl, .failed failure⟩
  | storing done todo =>
      cases todo with
      | nil =>
          left
          rw [List.append_nil]
          exact ⟨rfl, .finished done⟩
      | cons user todo =>
          right
          refine ⟨user, rfl, ?_⟩
          rw [List.append_cons]
          exact stored_ofTodo (done ++ [user]) todo
  | finished => exact .inl ⟨rfl, .finished done⟩
  | failed failure => exact .inl ⟨rfl, .failed failure⟩

/-- A step asks for the recipients, once. -/
theorem answer?_step (work : Recording) (event : Event) (now : Timestamp) (store : Store) :
    (work.step .none event now store).1.answer? =
      some (work.answer?.getD (Faults.none.recipients store event)) := by
  cases work with
  | lookingUp =>
      simp only [step]
      split
      · next users hlookup => rw [answer?_ofTodo, answer?, hlookup, Option.getD_none]
      · next failure hlookup => rw [answer?, answer?, hlookup, Option.getD_none]
  | storing recipients todo =>
      cases todo with
      | nil => rfl
      | cons user todo => exact answer?_ofTodo recipients todo
  | finished outcome => rfl

theorem answer?_eq_none : work.answer? = none ↔ work = lookingUp := by
  cases work <;> simp [answer?]

end Recording

/-- A call that records an event, and how far it is. -/
structure Recorder where
  event : Event
  work : Recording

/-- A store and the calls that work on it. -/
structure Desk where
  store : Store
  calls : List Recorder

/-- What happens next at a desk. -/
inductive Desk.Turn where
  /-- A call makes its next step. -/
  | advance (call : Nat) (now : Timestamp)
  /-- Somebody does something else. -/
  | tend (operation : Store.Operation) (creates : operation.created? = none)

namespace Desk

/-- Calls that have not begun. -/
def opened (store : Store) (events : List Event) : Desk where
  store := store
  calls := events.map fun event => ⟨event, .lookingUp⟩

/-- A desk after a turn. -/
def take (desk : Desk) : Turn → Desk
  | .advance call now =>
      match desk.calls[call]? with
      | none => desk
      | some { event, work } =>
          let (work, store) := work.step .none event now desk.store
          { store, calls := desk.calls.set call { event, work } }
  | .tend operation _ => { desk with store := operation.apply desk.store }

/-- A desk after turns. -/
def run (desk : Desk) (turns : List Turn) : Desk :=
  turns.foldl take desk

theorem run_append (desk : Desk) (turns more : List Turn) :
    desk.run (turns ++ more) = (desk.run turns).run more :=
  List.foldl_append

/-- What a call has in a list of rows and of the calls that stored them. -/
def share (call : Nat) (added : List (Nat × Notification)) : List Draft :=
  (added.filter fun entry => entry.1 == call).map (·.2.draft)

/-- The rows at a desk are those from before and one for every user that a call stored, each in the
name of its call. -/
structure Booked (before : Store) (desk : Desk) (added : List (Nat × Notification)) : Prop where
  rows : desk.store.rows.map Notification.unread =
    before.rows.map Notification.unread ++ added.map (·.2)
  authors : ∀ entry ∈ added, entry.1 < desk.calls.length
  shares : ∀ i call, desk.calls[i]? = some call →
    ∃ done, call.work.Stored done ∧ share i added = done.map call.event.draft

/-- The rows that a call adds are its own share. -/
theorem share_append_map (i : Nat) (added : List (Nat × Notification))
    (new : List Notification) :
    share i (added ++ new.map fun row => (i, row)) = share i added ++ new.map (·.draft) := by
  have hall : (new.map fun row => (i, row)).filter (fun entry => entry.1 == i) =
      new.map fun row => (i, row) :=
    List.filter_eq_self.mpr (by simp)
  simp [share, hall, Function.comp_def]

/-- They are not in the share of another call. -/
theorem share_append_map_of_ne {i j : Nat} (h : i ≠ j) (added : List (Nat × Notification))
    (new : List Notification) :
    share j (added ++ new.map fun row => (i, row)) = share j added := by
  simp [share, List.filter_map, Function.comp_def, h]

variable {before : Store} {desk : Desk} {added : List (Nat × Notification)}

/-- Before the first turn nothing was stored. -/
theorem booked_opened (store : Store) (events : List Event) :
    (opened store events).Booked store [] where
  rows := by simp [opened]
  authors := by simp
  shares := by
    intro i call hcall
    obtain ⟨event, -, rfl⟩ : ∃ event, events[i]? = some event ∧
        (⟨event, .lookingUp⟩ : Recorder) = call := by
      simpa [opened] using hcall
    exact ⟨[], .lookingUp, rfl⟩

/-- A call that goes on books the rows that it stores. -/
theorem Booked.goOn (h : desk.Booked before added) {i : Nat} {event : Event} {work next : Recording}
    (hi : desk.calls[i]? = some ⟨event, work⟩) {done : List UserId}
    (hdone : share i added = done.map event.draft) (more : List UserId)
    (hnext : next.Stored (done ++ more)) {store : Store} (new : List Notification)
    (hnew : new.map (·.draft) = more.map event.draft)
    (hstore : store.rows.map Notification.unread =
      desk.store.rows.map Notification.unread ++ new) :
    Booked before ⟨store, desk.calls.set i ⟨event, next⟩⟩
      (added ++ new.map fun row => (i, row)) := by
  obtain ⟨hlt, -⟩ := List.getElem?_eq_some_iff.mp hi
  constructor
  case rows => simp [hstore, h.rows, Function.comp_def]
  case authors =>
      intro entry hentry
      rw [List.length_set]
      rcases List.mem_append.mp hentry with hold | hin
      · exact h.authors entry hold
      · obtain ⟨row, -, rfl⟩ := List.mem_map.mp hin
        exact hlt
  case shares =>
      intro j call hj
      by_cases hsame : i = j
      · subst hsame
        obtain rfl : ⟨event, next⟩ = call := by simpa [hlt] using hj
        refine ⟨done ++ more, hnext, ?_⟩
        rw [share_append_map, hdone, hnew, List.map_append]
      · rw [List.getElem?_set_ne hsame] at hj
        rw [share_append_map_of_ne hsame]
        exact h.shares j call hj

/-- Every turn books what it stores. -/
theorem Booked.take (h : desk.Booked before added) (turn : Turn) :
    ∃ new, (desk.take turn).Booked before (added ++ new) := by
  cases turn with
  | tend operation hcreates =>
      refine ⟨[], ?_⟩
      rw [List.append_nil]
      exact ⟨(operation.unread_apply hcreates desk.store).trans h.rows, h.authors, h.shares⟩
  | advance i now =>
      simp only [Desk.take]
      split
      · exact ⟨[], by rwa [List.append_nil]⟩
      · next event work hi =>
          obtain ⟨done, hdone, hshare⟩ := h.shares i _ hi
          rcases hdone.step event now desk.store with ⟨hstore, hnext⟩ | ⟨user, hstore, hnext⟩
          · refine ⟨_, h.goOn hi hshare [] ?_ [] rfl ?_⟩
            · rwa [List.append_nil]
            · rw [hstore, List.append_nil]
          · let row := (desk.store.create (event.draft user) now).1
            refine ⟨_, h.goOn hi hshare [user] hnext [row] rfl ?_⟩
            rw [hstore, Store.rows_create, List.map_append]
            rfl

/-- Whatever turns were made, every row is booked. -/
theorem Booked.run (h : desk.Booked before added) (turns : List Turn) :
    ∃ new, (desk.run turns).Booked before (added ++ new) := by
  induction turns generalizing desk added with
  | nil => exact ⟨[], by rwa [List.append_nil]⟩
  | cons turn turns ih =>
      obtain ⟨new, hnew⟩ := h.take turn
      obtain ⟨more, hmore⟩ := ih hnew
      exact ⟨new ++ more, by rwa [← List.append_assoc]⟩

/-- A turn leaves a call as it is, or it is the call's own and advances it. -/
theorem calls_take {turn : Turn} {i : Nat} {event : Event} {work : Recording}
    (h : (desk.take turn).calls[i]? = some ⟨event, work⟩) :
    desk.calls[i]? = some ⟨event, work⟩ ∨ ∃ now earlier, turn = .advance i now ∧
      desk.calls[i]? = some ⟨event, earlier⟩ ∧
      work = (earlier.step .none event now desk.store).1 := by
  cases turn with
  | tend => exact .inl h
  | advance j now =>
      simp only [take] at h
      split at h
      · exact .inl h
      · next hj =>
          rw [List.getElem?_set] at h
          split at h
          · next hsame =>
              subst hsame
              split at h
              · obtain ⟨rfl, rfl⟩ := Recorder.mk.inj (Option.some.inj h)
                exact .inr ⟨now, _, rfl, hj, rfl⟩
              · cases h
          · exact .inl h

/-- Calls keep their events. -/
theorem events_run (desk : Desk) (turns : List Turn) :
    (desk.run turns).calls.map (·.event) = desk.calls.map (·.event) := by
  induction turns generalizing desk with
  | nil => rfl
  | cons turn turns ih =>
      apply (ih (desk.take turn)).trans
      cases turn with
      | tend => rfl
      | advance i now =>
          simp only [take]
          split
          · rfl
          · next event work hi =>
              obtain ⟨hlt, hget⟩ := List.getElem?_eq_some_iff.mp hi
              have hevent : (desk.calls.map (·.event))[i]? = some event := by simp [hi]
              rw [List.map_set]
              apply List.ext_getElem?
              intro j
              rw [List.getElem?_set]
              split
              · next hsame => simp [← hsame, hlt, hget]
              · rfl

/-- A call that knows its recipients knew them before, or it has asked for them in the meantime. -/
theorem asked_of_answer? {turns : List Turn} {i : Nat} {event : Event} {work : Recording}
    {outcome : Except Failure (List UserId)}
    (h : (desk.run turns).calls[i]? = some ⟨event, work⟩) (hanswer : work.answer? = some outcome) :
    (∃ earlier, desk.calls[i]? = some ⟨event, earlier⟩ ∧ earlier.answer? = some outcome) ∨
    ∃ before now after, turns = before ++ .advance i now :: after ∧
      (desk.run before).calls[i]? = some ⟨event, .lookingUp⟩ ∧
      Faults.none.recipients (desk.run before).store event = outcome := by
  induction turns generalizing desk with
  | nil => exact .inl ⟨work, h, hanswer⟩
  | cons turn turns ih =>
      rcases ih h with ⟨later, hlater, hknown⟩ | ⟨before, now, after, rfl, hask⟩
      · rcases calls_take hlater with hsame | ⟨now, earlier, rfl, hearlier, rfl⟩
        · exact .inl ⟨later, hsame, hknown⟩
        rw [Recording.answer?_step] at hknown
        cases hearly : earlier.answer? with
        | some early =>
            rw [hearly] at hknown
            exact .inl ⟨earlier, hearlier, hearly.trans hknown⟩
        | none =>
            obtain rfl := Recording.answer?_eq_none.mp hearly
            exact .inr ⟨[], now, turns, rfl, hearlier, Option.some.inj hknown⟩
      · exact .inr ⟨turn :: before, now, after, rfl, hask⟩

/-- The booked rows are numbered on from the rows that were there. -/
theorem Booked.ids (h : desk.Booked before added) :
    added.map (·.2.id) =
      (List.range' before.rows.length added.length).map NotificationId.after := by
  have hrows := congrArg (List.map (·.id)) h.rows
  simp only [List.map_map, List.map_append, Function.comp_def, Notification.unread] at hrows
  have hids := Store.ids_of_append hrows
  rwa [List.length_map] at hids

/-- Recordings that run at once lose no row and store none twice. When all have ended, the new rows
fall into the shares of the recordings: each has one row for every user that its own lookup said, in
strictly ascending order and with what its own event says, or none if the lookup failed. The ids go
on from row to row, whoever stored it. -/
theorem recordings_interleave (store : Store) (events : List Event) (turns : List Turn)
    (hdone : ∀ call ∈ ((opened store events).run turns).calls,
      ∃ outcome, call.work = .finished outcome) :
    let desk := (opened store events).run turns
    ∃ added : List (Nat × Notification),
      desk.store.rows.map Notification.unread =
        store.rows.map Notification.unread ++ added.map (·.2) ∧
      (∀ entry ∈ added, entry.1 < events.length) ∧
      added.map (·.2.id) = (List.range' store.rows.length added.length).map NotificationId.after ∧
      (store.rows.length + added.length < 2 ^ 63 → added.map (·.2.id.key.toInt) =
        (List.range' (store.rows.length + 1) added.length).map Int.ofNat) ∧
      ∀ (i : Nat) event, events[i]? = some event → ∃ outcome before now after,
        desk.calls[i]? = some ⟨event, .finished outcome⟩ ∧
        turns = before ++ .advance i now :: after ∧
        ((opened store events).run before).calls[i]? = some ⟨event, .lookingUp⟩ ∧
        Faults.none.recipients ((opened store events).run before).store event = outcome ∧
        match outcome with
        | .ok users =>
            users.Pairwise (fun a b => a.key < b.key) ∧ share i added = users.map event.draft
        | .error _ => share i added = [] := by
  obtain ⟨added, hbooked⟩ := (booked_opened store events).run turns
  rw [List.nil_append] at hbooked
  have hevents : ((opened store events).run turns).calls.map (·.event) = events := by
    rw [events_run]
    simp [opened, Function.comp_def]
  have hlength : ((opened store events).run turns).calls.length = events.length := by
    rw [← List.length_map, hevents]
  refine ⟨added, hbooked.rows, ?_, hbooked.ids, ?_, ?_⟩
  · intro entry hentry
    rw [← hlength]
    exact hbooked.authors entry hentry
  · intro hroom
    rw [← NotificationId.map_toInt_after hroom, ← hbooked.ids, List.map_map]
    rfl
  · intro i event hi
    obtain ⟨call, hcall, rfl⟩ : ∃ call, ((opened store events).run turns).calls[i]? = some call ∧
        call.event = event := by
      rw [← hevents, List.getElem?_map, Option.map_eq_some_iff] at hi
      exact hi
    obtain ⟨outcome, hfinished⟩ := hdone call (List.mem_of_getElem? hcall)
    obtain ⟨event, work⟩ := call
    obtain rfl : work = .finished outcome := hfinished
    obtain ⟨earlier, hearlier, hknown⟩ | ⟨before, now, after, hturns, hask, hlookup⟩ :=
      asked_of_answer? hcall rfl
    · -- Nobody knew anything when the calls were opened.
      have hnew : earlier = .lookingUp := by
        simp only [opened, List.getElem?_map, Option.map_eq_some_iff, Recorder.mk.injEq] at hearlier
        obtain ⟨-, -, -, hwork⟩ := hearlier
        exact hwork.symm
      rw [hnew] at hknown
      cases hknown
    refine ⟨outcome, before, now, after, hcall, hturns, hask, hlookup, ?_⟩
    obtain ⟨done, hstored, hshare⟩ := hbooked.shares i _ hcall
    cases hstored with
    | finished => exact ⟨Faults.recipients_ascending hlookup, hshare⟩
    | failed => exact hshare

/-- Users 3 and 8 favorited listing 42. -/
def twoFavorites : Store :=
  (Store.empty.addFavorite ⟨8⟩ ⟨42⟩).addFavorite ⟨3⟩ ⟨42⟩

/-- The price of listing 42 drops. -/
def fortyTwoDrops : Event := .priceDrop ⟨42⟩ "1 Main St" "$400"

/-- The status of listing 42 changes. -/
def fortyTwoSold : Event := .statusChange ⟨42⟩ "1 Main St" "sold"

/-- Both lookups are made, and user 5 favorites the listing between them. -/
def twoLookups : List Turn :=
  [.advance 0 ⟨0, 0⟩, .tend (.addFavorite ⟨5⟩ ⟨42⟩) rfl, .advance 1 ⟨0, 0⟩]

/-- Both changes are recorded at once, and user 3 reads a row before the recordings end. -/
def twoAtOnce : List Turn :=
  twoLookups ++ [.advance 1 ⟨1, 0⟩, .advance 0 ⟨1, 0⟩, .tend (.toggleRead ⟨1⟩ ⟨3⟩) rfl,
    .advance 1 ⟨2, 0⟩, .advance 0 ⟨2, 0⟩, .advance 1 ⟨3, 0⟩]

theorem run_twoAtOnce :
    let desk := (opened twoFavorites [fortyTwoDrops, fortyTwoSold]).run twoAtOnce
    desk.calls = [⟨fortyTwoDrops, .finished (.ok [⟨3⟩, ⟨8⟩])⟩,
      ⟨fortyTwoSold, .finished (.ok [⟨3⟩, ⟨5⟩, ⟨8⟩])⟩] ∧
    desk.store.rows.map (fun row => (row.userId, row.kind)) =
      [(⟨3⟩, .statusChanged), (⟨3⟩, .priceDrop), (⟨5⟩, .statusChanged), (⟨8⟩, .priceDrop),
        (⟨8⟩, .statusChanged)] := by
  have hfavorites : twoFavorites.favorites = [(⟨42⟩, ⟨8⟩), (⟨42⟩, ⟨3⟩)] := by decide
  have hfavorites' : (twoFavorites.addFavorite ⟨5⟩ ⟨42⟩).favorites =
      [(⟨42⟩, ⟨8⟩), (⟨42⟩, ⟨3⟩), (⟨42⟩, ⟨5⟩)] := by decide
  have hfirst : twoFavorites.interested ⟨42⟩ = [⟨3⟩, ⟨8⟩] := by
    refine Store.interested_eq_of_ascending (fun user => ?_) (by decide)
    rw [hfavorites]
    grind
  have hsecond : (twoFavorites.addFavorite ⟨5⟩ ⟨42⟩).interested ⟨42⟩ = [⟨3⟩, ⟨5⟩, ⟨8⟩] := by
    refine Store.interested_eq_of_ascending (fun user => ?_) (by decide)
    rw [hfavorites']
    grind
  have hlookups : (opened twoFavorites [fortyTwoDrops, fortyTwoSold]).run twoLookups =
      ⟨twoFavorites.addFavorite ⟨5⟩ ⟨42⟩,
        [⟨fortyTwoDrops, .storing [⟨3⟩, ⟨8⟩] [⟨3⟩, ⟨8⟩]⟩,
          ⟨fortyTwoSold, .storing [⟨3⟩, ⟨5⟩, ⟨8⟩] [⟨3⟩, ⟨5⟩, ⟨8⟩]⟩]⟩ := by
    simp [run, twoLookups, opened, take, Recording.step, Faults.recipients, Faults.interested,
      fortyTwoDrops, fortyTwoSold, Event.listing, Faults.none, Store.Operation.apply, hfirst,
      hsecond, Recording.ofTodo]
  rw [twoAtOnce, run_append, hlookups]
  exact ⟨rfl, rfl⟩

theorem recordings_interleave_twoAtOnce :
    let first := opened twoFavorites [fortyTwoDrops, fortyTwoSold]
    (∀ call ∈ (first.run twoAtOnce).calls, ∃ outcome, call.work = .finished outcome) ∧
    ∃ added : List (Nat × Notification),
      (first.run twoAtOnce).store.rows.map Notification.unread = added.map (·.2) ∧
      added.map (·.2.id) = (List.range' 0 added.length).map NotificationId.after := by
  have hdone : ∀ call ∈ ((opened twoFavorites [fortyTwoDrops, fortyTwoSold]).run twoAtOnce).calls,
      ∃ outcome, call.work = .finished outcome := by
    rw [run_twoAtOnce.1]
    simp
  obtain ⟨added, hrows, -, hids, -⟩ := recordings_interleave _ _ _ hdone
  exact ⟨hdone, added, hrows, hids⟩

end Desk

end ListingHub
