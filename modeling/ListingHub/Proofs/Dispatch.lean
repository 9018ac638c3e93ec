import ListingHub.Handling
import ListingHub.Proofs.Broadcast
import ListingHub.Proofs.Event
import ListingHub.Proofs.Recording

/-!
# What the dispatcher does with an envelope

An event is recorded for all it concerns and then pushed to them, or the dispatcher fails and pushes
nothing. `Succeeds` and `Fails` name the two cases by what the store and the clock do; exactly one
of them holds, so that every outcome has its cause.
-/

namespace ListingHub

namespace Service

variable {service : Service} {now : Instant} {source : Handle} {user : UserId}
variable {envelope : Envelope} {event : Event} {users : List UserId} {failure : Failure}

/-- The lookup for an event answers with users and a row is stored for each of them, all within the
timeout of the handler. -/
structure Succeeds (service : Service) (event : Event) (users : List UserId) : Prop where
  lookup : service.faults.recipients service.store event = .ok users
  stores : ∀ user ∈ users, service.faults.createFails user = none
  inTime : service.faults.elapsed event users ≤ service.handlerTimeout.toNanos

/-- Why the dispatcher fails on an envelope, and for whom rows are stored before it does. -/
inductive Fails (service : Service) (envelope : Envelope) : Failure → List UserId → Prop
  /-- The envelope is no event. -/
  | undecoded {failure : Failure} (hevent : Event.ofEnvelope envelope = .error failure) :
      Fails service envelope failure []
  /-- The lookup outlasts the timeout. -/
  | lookupLate {event : Event} (hevent : Event.ofEnvelope envelope = .ok event)
      (hlate : service.handlerTimeout.toNanos < service.faults.elapsed event []) :
      Fails service envelope (.handlerTimeout service.handlerTimeout) []
  /-- The lookup fails. -/
  | lookupFails {event : Event} {failure : Failure}
      (hevent : Event.ofEnvelope envelope = .ok event)
      (htime : service.faults.elapsed event [] ≤ service.handlerTimeout.toNanos)
      (hfails : service.faults.recipients service.store event = .error failure) :
      Fails service envelope failure []
  /-- Storing the row of a recipient outlasts the timeout. -/
  | storeLate {event : Event} {done : List UserId} {user : UserId} {todo : List UserId}
      (hevent : Event.ofEnvelope envelope = .ok event)
      (hlookup : service.faults.recipients service.store event = .ok (done ++ user :: todo))
      (hstores : ∀ other ∈ done, service.faults.createFails other = none)
      (htime : service.faults.elapsed event done ≤ service.handlerTimeout.toNanos)
      (hlate : service.handlerTimeout.toNanos < service.faults.elapsed event (done ++ [user])) :
      Fails service envelope (.handlerTimeout service.handlerTimeout) done
  /-- Storing the row of a recipient fails. -/
  | storeFails {event : Event} {done : List UserId} {user : UserId} {todo : List UserId}
      {reason : String} (hevent : Event.ofEnvelope envelope = .ok event)
      (hlookup : service.faults.recipients service.store event = .ok (done ++ user :: todo))
      (hstores : ∀ other ∈ done, service.faults.createFails other = none)
      (htime : service.faults.elapsed event (done ++ [user]) ≤ service.handlerTimeout.toNanos)
      (hfails : service.faults.createFails user = some reason) :
      Fails service envelope (.persistence reason) done

/-- The job of an event that was received over a connection. -/
def jobOf (service : Service) (now : Instant) (source : Handle) (user : UserId)
    (envelope : Envelope) (event : Event) : Job where
  source := source
  user := user
  eventType := envelope.eventType
  event := event
  limit := ⟨now + service.handlerTimeout.toNanos, .handlerTimeout service.handlerTimeout⟩

theorem dispatch_of_error (hevent : Event.ofEnvelope envelope = .error failure) :
    service.dispatch now source user envelope = (.error failure, service, []) := by
  simp [dispatch, Job.ofEnvelope, hevent, Except.map]

theorem dispatch_of_ok (hevent : Event.ofEnvelope envelope = .ok event) :
    service.dispatch now source user envelope =
      service.handle (service.jobOf now source user envelope event) now := by
  simp [dispatch, Job.ofEnvelope, hevent, Except.map, jobOf]

/-- When the lookup and the rows of the first recipients are in time, storing goes on with the
others. -/
theorem record_of_lookup_append {done todo : List UserId} (limit : Failure)
    (hlookup : service.faults.recipients service.store event = .ok (done ++ todo))
    (hstores : ∀ user ∈ done, service.faults.createFails user = none)
    (htime : service.faults.elapsed event done ≤ service.handlerTimeout.toNanos)
    (now : Instant) :
    ∃ store, service.store.Extends event done store ∧
      service.faults.record event service.start
          (some ⟨now + service.handlerTimeout.toNanos, limit⟩) now service.store =
        let storing := service.faults.storeAll event service.start
          (some ⟨now + service.handlerTimeout.toNanos, limit⟩) todo
          (now + service.faults.elapsed event done) store
        (storing.1.map fun _ => done ++ todo, storing.2) := by
  have hin := Nat.add_le_add_left htime now
  have hlooked := Nat.add_le_add_left
    (Nat.le_trans (service.faults.elapsed_le_append event [] done) htime) now
  rw [← Faults.add_elapsed] at hin
  obtain ⟨store, hextends, hrest⟩ := Faults.storeAll_append event service.start
    ⟨now + service.handlerTimeout.toNanos, limit⟩ hstores hin service.store
  refine ⟨store, hextends, ?_⟩
  rw [Faults.record_of_lookup hlooked hlookup, hrest todo, Faults.add_elapsed]

/-- A handling that recorded its event pushes it to the recipients, if there are any. -/
theorem handle_of_record_ok (job : Job) {store : Store}
    (hrecord : service.faults.record job.event service.start (some job.limit) now service.store =
      (.ok users, store)) :
    (service.handle job now).1 = .ok () ∧
      (service.handle job now).2.1 = { service with
        store
        board :=
          if users = [] then service.board
          else (service.board.broadcast (job.message users)).2.1 } := by
  cases users with
  | nil => simp [handle, hrecord]
  | cons user users => simp [handle, hrecord]

theorem handle_of_record_error {job : Job} {store : Store}
    (hrecord : service.faults.record job.event service.start (some job.limit) now service.store =
      (.error failure, store)) :
    service.handle job now = (.error failure, { service with store }, []) := by
  simp [handle, hrecord]

/-- A recording that fails makes the dispatcher fail. -/
theorem dispatch_of_record_error (hevent : Event.ofEnvelope envelope = .ok event)
    {store : Store} {done : List UserId} (hextends : service.store.Extends event done store)
    (hrecord : service.faults.record event service.start
      (some ⟨now + service.handlerTimeout.toNanos, .handlerTimeout service.handlerTimeout⟩) now
      service.store = (.error failure, store)) :
    ∃ store, service.dispatch now source user envelope =
        (.error failure, { service with store }, []) ∧
      (done = [] → store = service.store) ∧
      ∀ event, Event.ofEnvelope envelope = .ok event →
        service.store.Extends event done store := by
  refine ⟨store, ?_, ?_, ?_⟩
  · rw [dispatch_of_ok hevent]
    exact handle_of_record_error hrecord
  · rintro rfl
    exact hextends.eq_of_nil
  · intro other hother
    obtain rfl := Except.ok.inj (hevent.symm.trans hother)
    exact hextends

/-- A cause of failure makes the dispatcher fail, and up to it the rows were stored. -/
theorem dispatch_of_fails {done : List UserId} (h : service.Fails envelope failure done)
    (now : Instant) (source : Handle) (user : UserId) :
    ∃ store, service.dispatch now source user envelope =
        (.error failure, { service with store }, []) ∧
      (done = [] → store = service.store) ∧
      ∀ event, Event.ofEnvelope envelope = .ok event →
        service.store.Extends event done store := by
  cases h with
  | undecoded hevent =>
      refine ⟨service.store, dispatch_of_error hevent, fun _ => rfl, ?_⟩
      intro event hok
      rw [hevent] at hok
      cases hok
  | lookupLate hevent hlate =>
      exact dispatch_of_record_error hevent (.refl service.store)
        (Faults.record_of_late (Nat.le_add_right _ _) (Nat.add_lt_add_left hlate now) _)
  | lookupFails hevent htime hfails =>
      exact dispatch_of_record_error hevent (.refl service.store)
        (Faults.record_of_lookup_fails (Nat.add_le_add_left htime now) hfails)
  | @storeLate event done user todo hevent hlookup hstores htime hlate =>
      obtain ⟨store, hextends, hrecord⟩ := record_of_lookup_append
        (.handlerTimeout service.handlerTimeout) hlookup hstores htime now
      have hnext := Nat.add_lt_add_left hlate now
      rw [← Faults.add_elapsed, Faults.storingTime_append, ← Nat.add_assoc,
        Faults.add_elapsed] at hnext
      rw [Faults.storeAll_of_late (Nat.add_le_add_left htime now) hnext] at hrecord
      exact dispatch_of_record_error hevent hextends hrecord
  | @storeFails event done user todo reason hevent hlookup hstores htime hfails =>
      have hbefore := Nat.le_trans (service.faults.elapsed_le_append event done [user]) htime
      obtain ⟨store, hextends, hrecord⟩ := record_of_lookup_append
        (.handlerTimeout service.handlerTimeout) hlookup hstores hbefore now
      have hnext := Nat.add_le_add_left htime now
      rw [← Faults.add_elapsed, Faults.storingTime_append, ← Nat.add_assoc,
        Faults.add_elapsed] at hnext
      rw [Faults.storeAll_of_fails hnext hfails] at hrecord
      exact dispatch_of_record_error hevent hextends hrecord

/-- An event that succeeds is recorded for its recipients and pushed to them. -/
theorem dispatch_of_succeeds (hevent : Event.ofEnvelope envelope = .ok event)
    (h : service.Succeeds event users) (now : Instant) (source : Handle) (user : UserId) :
    (service.dispatch now source user envelope).1 = .ok () ∧
    ∃ store, service.store.Extends event users store ∧
      (service.dispatch now source user envelope).2.1 = { service with
        store
        board :=
          if users = [] then service.board
          else (service.board.broadcast
            ⟨fun user => users.contains user, .notification event.kind event.message⟩).2.1 } := by
  have hlookup := h.lookup
  rw [← List.append_nil users] at hlookup
  obtain ⟨store, hextends, hrecord⟩ := record_of_lookup_append
    (.handlerTimeout service.handlerTimeout) hlookup h.stores h.inTime now
  rw [Faults.storeAll, List.append_nil] at hrecord
  have hhandle := handle_of_record_ok (service.jobOf now source user envelope event) hrecord
  rw [← dispatch_of_ok hevent] at hhandle
  exact ⟨hhandle.1, store, hextends, hhandle.2⟩

/-- The dispatcher succeeds on an envelope or there is a cause why it fails. -/
theorem succeeds_or_fails (service : Service) (envelope : Envelope) :
    (∃ event users, Event.ofEnvelope envelope = .ok event ∧ service.Succeeds event users) ∨
      ∃ failure done, service.Fails envelope failure done := by
  cases hevent : Event.ofEnvelope envelope with
  | error failure => exact .inr ⟨failure, [], .undecoded hevent⟩
  | ok event =>
      rcases Nat.lt_or_ge service.handlerTimeout.toNanos (service.faults.elapsed event []) with
        hlate | htime
      · exact .inr ⟨_, [], .lookupLate hevent hlate⟩
      cases hlookup : service.faults.recipients service.store event with
      | error failure => exact .inr ⟨failure, [], .lookupFails hevent htime hlookup⟩
      | ok users =>
          rcases service.faults.storing_cases users htime with
            ⟨hstores, hall⟩ | ⟨done, user, todo, rfl, hstores, hdone, hlate | ⟨hin, reason, hfails⟩⟩
          · exact .inl ⟨event, users, rfl, hlookup, hstores, hall⟩
          · exact .inr ⟨_, done, .storeLate hevent hlookup hstores hdone hlate⟩
          · exact .inr ⟨_, done, .storeFails hevent hlookup hstores hin hfails⟩

/-- The users who have a row when the dispatcher fails are the first of the recipients, and not all
of them. -/
theorem Fails.prefix_of_recipients {done : List UserId} (h : service.Fails envelope failure done)
    (hevent : Event.ofEnvelope envelope = .ok event)
    (hlookup : service.faults.recipients service.store event = .ok users) :
    done <+: users ∧ (users ≠ [] → done ≠ users) := by
  cases h with
  | undecoded _ | lookupLate _ _ | lookupFails _ _ _ =>
      exact ⟨List.nil_prefix, fun hsome => hsome.symm⟩
  | storeLate hevent' hlookup' _ _ _ | storeFails hevent' hlookup' _ _ _ =>
      obtain rfl := Except.ok.inj (hevent.symm.trans hevent')
      obtain rfl := Except.ok.inj (hlookup.symm.trans hlookup')
      exact ⟨List.prefix_append _ _, fun _ => by simp⟩

/-- When the lookup and all rows succeed within the timeout, the dispatcher succeeds. Its whole
effect is one unread row for every user the event concerns, in ascending order and numbered on, and
the push of the event's message to exactly these users. -/
theorem dispatch_records_and_pushes (hboard : service.board.Reachable)
    (hevent : Event.ofEnvelope envelope = .ok event) (hok : service.Succeeds event users)
    (hroom : service.store.rows.length + users.length < 2 ^ 63) (now : Instant) (source : Handle)
    (user : UserId) :
    let after := (service.dispatch now source user envelope).2.1
    (service.dispatch now source user envelope).1 = .ok () ∧
    (∀ other, other ∈ users ↔ service.store.Concerns event other) ∧
    (users.Pairwise fun a b => a.key < b.key) ∧
    (∃ new, after.store.rows = service.store.rows ++ new ∧ new.map (·.userId) = users ∧
      new.map (fun row => row.id.key.toInt) =
        (List.range' (service.store.rows.length + 1) users.length).map Int.ofNat ∧
      ∀ row ∈ new, row.id ∉ service.store.rows.map (·.id) ∧ row.listingId = event.listing ∧
        row.kind = event.kind ∧ row.message = event.message ∧ row.isRead = false) ∧
    event.kind.name = envelope.eventType ∧
    Switchboard.Pushed (· ∈ users) ⟨envelope.eventType, .obj [("message", .str event.message)]⟩
      service.board after.board ∧
    after.store.agents = service.store.agents ∧ after.store.favorites = service.store.favorites ∧
    after.store.sessions = service.store.sessions ∧
    after = { service with store := after.store, board := after.board } := by
  obtain ⟨hdone, store, hextends, hafter⟩ := dispatch_of_succeeds hevent hok now source user
  have hkind := Event.kind_of_ofEnvelope hevent
  refine ⟨hdone, Faults.mem_recipients hok.lookup, Faults.recipients_ascending hok.lookup, ?_,
    hkind, ?_, ?_, ?_, ?_, ?_⟩
  · rw [hafter]
    obtain ⟨new, hnew, husers, hdata⟩ := hextends.rows
    obtain ⟨hids, hfresh⟩ := hextends.ids_fresh hroom hnew
    exact ⟨new, hnew, husers, hids, fun row hrow => ⟨hfresh row hrow, hdata row hrow⟩⟩
  · rw [hafter]
    dsimp only
    split
    · next hnobody =>
        subst hnobody
        exact Switchboard.Pushed.of_forall_not (by simp) _ _
    · have hpushed := Switchboard.pushed_broadcast hboard
        ⟨fun user => users.contains user, .notification event.kind event.message⟩
      simpa [Envelope.notification, Push.toJson, hkind] using hpushed
  · rw [hafter]
    exact hextends.agents
  · rw [hafter]
    exact hextends.favorites
  · rw [hafter]
    exact hextends.sessions
  · rw [hafter]

/-- Users 3 and 8 favorited listing 42. Each has an open connection, and that of user 8 is full. -/
def twoFollowers (faults : Faults) : Service :=
  let store := (Store.empty.addFavorite ⟨3⟩ ⟨42⟩).addFavorite ⟨8⟩ ⟨42⟩
  let board := [.connect ⟨⟨3⟩, .user⟩ 1, .connect ⟨⟨8⟩, .user⟩ 1, .add 0, .add 1,
    .change 1 (.deliver ⟨"earlier", .null⟩)].foldl Switchboard.act (.empty .disconnect)
  { Service.new .disconnect ⟨5, 0, by decide, Duration.zero_lt_second⟩ store faults ⟨0, 0⟩ with
    board }

/-- The price of listing 42 drops. -/
def priceDrop : Envelope where
  eventType := "price_drop_notification"
  payload := .obj [("listing_id", .int 42), ("address", .str "1 Main St"), ("price", .str "$400")]

theorem recipients_twoFollowers {faults : Faults} (hfree : faults.lookupFails ⟨42⟩ = none) :
    faults.recipients (twoFollowers faults).store (.priceDrop ⟨42⟩ "1 Main St" "$400") =
      .ok [⟨3⟩, ⟨8⟩] := by
  have hsorted : [(⟨3⟩ : UserId), ⟨8⟩].mergeSort UserId.le = [⟨3⟩, ⟨8⟩] :=
    List.mergeSort_of_pairwise (by decide)
  have hinterested : (twoFollowers faults).store.interested ⟨42⟩ = [⟨3⟩, ⟨8⟩] := hsorted
  simpa [Faults.recipients, Faults.interested, Event.listing, hfree] using hinterested

theorem dispatch_records_and_pushes_to_followers :
    let service := twoFollowers .none
    let after := (service.dispatch 0 0 ⟨7⟩ priceDrop).2.1
    (service.dispatch 0 0 ⟨7⟩ priceDrop).1 = .ok () ∧
    after.store.rows.map (·.userId) = [⟨3⟩, ⟨8⟩] ∧
    0 ∈ after.board.members ∧ 1 ∉ after.board.members := by
  have hevent : Event.ofEnvelope priceDrop = .ok (.priceDrop ⟨42⟩ "1 Main St" "$400") := rfl
  have hok : (twoFollowers .none).Succeeds (.priceDrop ⟨42⟩ "1 Main St" "$400") [⟨3⟩, ⟨8⟩] :=
    ⟨recipients_twoFollowers rfl, fun _ _ => rfl, by decide⟩
  obtain ⟨hdone, -, -, ⟨new, hnew, husers, -⟩, -, hpushed, -⟩ :=
    dispatch_records_and_pushes (.acted (.empty .disconnect) (.foldl .refl _)) hevent hok
      (by decide) 0 0 ⟨7⟩
  refine ⟨hdone, ?_, ?_, ?_⟩
  · rw [hnew]
    exact husers
  · exact (hpushed.taken 0 _ rfl ⟨by decide, by simp; decide, rfl, rfl⟩ (by decide)).2
  · exact (hpushed.evicted 1 _ rfl ⟨by decide, by simp; decide, rfl, rfl⟩ (by decide) rfl).2

/-- The dispatcher succeeds exactly when the lookup and all rows succeed, with the timeout as the
last instant that is in time, and it fails exactly for a cause. Whatever the cause, no connection
and no registration changes, and the rows that were added are those of the first recipients, not of
all: of none when there was no event or no answer to the lookup, otherwise of those before the one
whose row failed or came too late. -/
theorem failed_dispatch_pushes_nothing (service : Service) (now : Instant) (source : Handle)
    (user : UserId) (envelope : Envelope) :
    ((service.dispatch now source user envelope).1 = .ok () ↔
      ∃ event users, Event.ofEnvelope envelope = .ok event ∧ service.Succeeds event users) ∧
    (∀ failure, (service.dispatch now source user envelope).1 = .error failure ↔
      ∃ done, service.Fails envelope failure done) ∧
    ∀ failure done, service.Fails envelope failure done →
      let after := (service.dispatch now source user envelope).2.1
      after.board = service.board ∧ after = { service with store := after.store } ∧
      (done = [] → after.store = service.store) ∧
      ∀ event, Event.ofEnvelope envelope = .ok event →
        service.store.Extends event done after.store ∧
        ∀ users, service.faults.recipients service.store event = .ok users →
          (∀ other, other ∈ users ↔ service.store.Concerns event other) ∧
          (users.Pairwise fun a b => a.key < b.key) ∧
          done <+: users ∧ (users ≠ [] → done ≠ users) := by
  have hfails : ∀ failure done, service.Fails envelope failure done →
      (service.dispatch now source user envelope).1 = .error failure := by
    intro failure done hcause
    obtain ⟨store, hdispatch, -⟩ := dispatch_of_fails hcause now source user
    rw [hdispatch]
  refine ⟨⟨?_, ?_⟩, fun failure => ⟨?_, ?_⟩, ?_⟩
  · intro hok
    apply (succeeds_or_fails service envelope).resolve_right
    rintro ⟨failure, done, hcause⟩
    rw [hfails failure done hcause] at hok
    cases hok
  · rintro ⟨event, users, hevent, hsucceeds⟩
    exact (dispatch_of_succeeds hevent hsucceeds now source user).1
  · intro herror
    rcases succeeds_or_fails service envelope with
      ⟨event, users, hevent, hok⟩ | ⟨other, done, hcause⟩
    · rw [(dispatch_of_succeeds hevent hok now source user).1] at herror
      cases herror
    · rw [hfails other done hcause] at herror
      exact ⟨done, Except.error.inj herror ▸ hcause⟩
  · rintro ⟨done, hcause⟩
    exact hfails failure done hcause
  · intro failure done hcause
    obtain ⟨store, hdispatch, hnil, hextends⟩ := dispatch_of_fails hcause now source user
    rw [hdispatch]
    refine ⟨rfl, rfl, hnil, ?_⟩
    intro event hevent
    refine ⟨hextends event hevent, ?_⟩
    intro users hlookup
    exact ⟨Faults.mem_recipients hlookup, Faults.recipients_ascending hlookup,
      hcause.prefix_of_recipients hevent hlookup⟩

/-- The disk is full when the row of user 8 is stored; user 3 has a row then. -/
theorem failed_dispatch_pushes_nothing_to_followers :
    let faults := { Faults.none with
      createFails := fun user => if user = ⟨8⟩ then some "disk full" else none }
    let after := ((twoFollowers faults).dispatch 0 0 ⟨7⟩ priceDrop).2.1
    ((twoFollowers faults).dispatch 0 0 ⟨7⟩ priceDrop).1 = .error (.persistence "disk full") ∧
    after.board = (twoFollowers faults).board ∧
    (twoFollowers faults).store.Extends (.priceDrop ⟨42⟩ "1 Main St" "$400") [⟨3⟩] after.store := by
  intro faults after
  have hcause : (twoFollowers faults).Fails priceDrop (.persistence "disk full") [⟨3⟩] :=
    .storeFails rfl (recipients_twoFollowers rfl) (by decide) (by decide) (by decide)
  obtain ⟨-, hfails, heffect⟩ :=
    failed_dispatch_pushes_nothing (twoFollowers faults) 0 0 ⟨7⟩ priceDrop
  obtain ⟨hboard, -, -, hrows⟩ := heffect _ _ hcause
  exact ⟨(hfails _).mpr ⟨_, hcause⟩, hboard, (hrows _ rfl).1⟩

end Service

end ListingHub
