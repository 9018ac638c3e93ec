import ListingHub.Proofs.Dispatch
import ListingHub.Proofs.Owner

/-!
# Events for different people

Two events that concern nobody in common may be dispatched in either order. They share the counter
of the rows, the list of the rows and the registry, but each reads and writes only the part of its
own recipients: a push leaves the connections of other users alone, and what a user is shown are the
user's own rows.
-/

namespace ListingHub

namespace Switchboard

/-- Two switchboards agree on a connection and on whether it is registered. -/
structure AgreeAt (board other : Switchboard) (h : Handle) : Prop where
  get?_eq : board.get? h = other.get? h
  mem_iff : h ∈ board.members ↔ h ∈ other.members

variable {board other next : Switchboard} {h : Handle}

theorem AgreeAt.refl (board : Switchboard) (h : Handle) : board.AgreeAt board h :=
  ⟨rfl, Iff.rfl⟩

theorem AgreeAt.symm (hagree : board.AgreeAt other h) : other.AgreeAt board h :=
  ⟨hagree.get?_eq.symm, hagree.mem_iff.symm⟩

theorem AgreeAt.trans (hfirst : board.AgreeAt other h) (hlast : other.AgreeAt next h) :
    board.AgreeAt next h :=
  ⟨hfirst.get?_eq.trans hlast.get?_eq, hfirst.mem_iff.trans hlast.mem_iff⟩

/-- A connection belongs to one of certain users. -/
def OwnedBy (board : Switchboard) (wanted : UserId → Prop) (h : Handle) : Prop :=
  ∃ c, board.get? h = some c ∧ wanted c.user

/-- A broadcast leaves the connections of other users alone. -/
theorem agreeAt_broadcast_of_not_ownedBy {message : Message}
    (hother : ¬board.OwnedBy (fun user => message.wanted user = true) h) :
    (board.broadcast message).2.1.AgreeAt board h := by
  have htarget : h ∉ board.snapshot message.wanted :=
    fun hin => hother ((board.mem_snapshot message.wanted h).mp hin).2
  constructor
  · rw [get?_broadcast]
    simp [htarget]
  · rw [mem_broadcast]
    simp [htarget]

/-- What a broadcast does to a connection depends on that connection alone. -/
theorem AgreeAt.broadcast (hagree : board.AgreeAt other h) (hpolicy : board.policy = other.policy)
    (message : Message) :
    (board.broadcast message).2.1.AgreeAt (other.broadcast message).2.1 h := by
  have htarget : h ∈ board.snapshot message.wanted ↔ h ∈ other.snapshot message.wanted := by
    rw [mem_snapshot, mem_snapshot, hagree.get?_eq, hagree.mem_iff]
  have houtcome : board.outcome h = other.outcome h := by
    rw [outcome, outcome, hagree.get?_eq]
  constructor
  · rw [get?_broadcast, get?_broadcast, hagree.get?_eq, hpolicy]
    simp only [htarget]
  · rw [mem_broadcast, mem_broadcast, hagree.mem_iff, htarget, houtcome, hpolicy]

/-- A broadcast takes no connection from its owner. -/
theorem ownedBy_broadcast (board : Switchboard) (message : Message) (wanted : UserId → Prop)
    (h : Handle) : (board.broadcast message).2.1.OwnedBy wanted h ↔ board.OwnedBy wanted h := by
  have howner (c : Connection) :
      (afterOffer board.policy message.envelope c).identity = c.identity := by
    unfold afterOffer
    split
    · exact Connection.identity_apply .beginClose c
    · exact Connection.identity_apply (.deliver message.envelope) c
  simp only [OwnedBy, get?_broadcast, Option.map_eq_some_iff]
  constructor
  · rintro ⟨_, ⟨c, hget, rfl⟩, hwanted⟩
    refine ⟨c, hget, ?_⟩
    split at hwanted
    · rwa [Connection.user, howner] at hwanted
    · exact hwanted
  · rintro ⟨c, hget, hwanted⟩
    refine ⟨_, ⟨c, hget, rfl⟩, ?_⟩
    split
    · rwa [Connection.user, howner]
    · exact hwanted

/-- Broadcasts to different users may come in either order. -/
theorem broadcast_comm (board : Switchboard) (first second : Message)
    (hdisjoint : ∀ user, first.wanted user = true → second.wanted user ≠ true) (h : Handle) :
    ((board.broadcast first).2.1.broadcast second).2.1.AgreeAt
      ((board.broadcast second).2.1.broadcast first).2.1 h := by
  -- At each connection one of the two broadcasts does nothing.
  by_cases hown : board.OwnedBy (fun user => first.wanted user = true) h
  · have hother : ¬board.OwnedBy (fun user => second.wanted user = true) h := by
      rintro ⟨c, hget, hwanted⟩
      obtain ⟨d, hd, hfirst⟩ := hown
      obtain rfl := Option.some.inj (hget.symm.trans hd)
      exact hdisjoint c.user hfirst hwanted
    have hlate : ¬(board.broadcast first).2.1.OwnedBy
        (fun user => second.wanted user = true) h := by
      rwa [ownedBy_broadcast]
    exact (agreeAt_broadcast_of_not_ownedBy hlate).trans
      ((agreeAt_broadcast_of_not_ownedBy hother).broadcast (policy_broadcast board second)
        first).symm
  · have hlate : ¬(board.broadcast second).2.1.OwnedBy
        (fun user => first.wanted user = true) h := by
      rwa [ownedBy_broadcast]
    exact ((agreeAt_broadcast_of_not_ownedBy hown).broadcast (policy_broadcast board first)
      second).trans (agreeAt_broadcast_of_not_ownedBy hlate).symm

end Switchboard

/-- What a row says, its number and its time aside. -/
def Notification.content (row : Notification) : Draft × Bool :=
  (⟨row.userId, row.listingId, row.kind, row.message⟩, row.isRead)

namespace Store

variable {event other : Event} {users others : List UserId} {before after : Store}

/-- The new rows of an event say the same wherever they are stored. -/
theorem Extends.map_content (h : Extends event users before after) :
    after.rows.map Notification.content = before.rows.map Notification.content ++
      users.map fun user => (event.draft user, false) := by
  obtain ⟨new, hnew, rfl, hdata⟩ := h.rows
  rw [hnew, List.map_append, List.map_map]
  congr 1
  apply List.map_congr_left
  intro row hrow
  obtain ⟨hlisting, hkind, hmessage, hread⟩ := hdata row hrow
  rw [Notification.content, hlisting, hkind, hmessage, hread]
  rfl

theorem map_content_listFor (store : Store) (user : UserId) :
    (store.listFor user).map Notification.content =
      (store.rows.map Notification.content).filter fun content => content.1.userId == user := by
  rw [listFor, List.filter_map]
  rfl

/-- A user sees what an event adds for the user. -/
theorem Extends.map_content_listFor (h : Extends event users before after) (user : UserId) :
    (after.listFor user).map Notification.content =
      (before.listFor user).map Notification.content ++
        (users.filter (· == user)).map fun user => (event.draft user, false) := by
  rw [Store.map_content_listFor, Store.map_content_listFor, h.map_content, List.filter_append]
  congr 1
  rw [List.filter_map]
  rfl

/-- Rows do not matter to a lookup. -/
theorem Extends.recipients_eq (h : Extends event users before after) (faults : Faults)
    (other : Event) : faults.recipients after other = faults.recipients before other := by
  cases other <;>
    simp only [Faults.recipients, Faults.agentOf, Faults.interested, agentOf, interested,
      h.agents, h.favorites]

/-- Rows for different users, stored in either order, show each user the same. -/
theorem map_content_listFor_comm {forth back forthward backward : Store}
    (hfirst : Extends event users before forth) (hlast : Extends other others forth forthward)
    (hother : Extends other others before back) (hrest : Extends event users back backward)
    (hdisjoint : ∀ user ∈ users, user ∉ others) (user : UserId) :
    (forthward.listFor user).map Notification.content =
      (backward.listFor user).map Notification.content := by
  rw [hlast.map_content_listFor, hfirst.map_content_listFor, hrest.map_content_listFor,
    hother.map_content_listFor]
  have hnone {list : List UserId} (hout : user ∉ list) : list.filter (· == user) = [] := by
    rw [List.filter_eq_nil_iff]
    intro member hin heq
    exact hout (beq_iff_eq.mp heq ▸ hin)
  by_cases hin : user ∈ users
  · simp [hnone (hdisjoint user hin)]
  · simp [hnone hin]

end Store

namespace Service

variable {service : Service} {envelope first second : Envelope} {event other : Event}
variable {users others : List UserId}

/-- An envelope carries an event that concerns a user. -/
def Concerns (service : Service) (envelope : Envelope) (user : UserId) : Prop :=
  ∃ event, Event.ofEnvelope envelope = .ok event ∧ service.store.Concerns event user

/-- An envelope that is dispatched carries an event whose lookup and rows succeed. -/
theorem succeeds_of_dispatch {now : Instant} {source : Handle} {user : UserId}
    (hdone : (service.dispatch now source user envelope).1 = .ok ()) :
    ∃ event users, Event.ofEnvelope envelope = .ok event ∧ service.Succeeds event users := by
  apply (succeeds_or_fails service envelope).resolve_right
  rintro ⟨failure, done, hcause⟩
  obtain ⟨store, hfailed, -⟩ := dispatch_of_fails hcause now source user
  rw [hfailed] at hdone
  cases hdone

/-- From one service to the next an event was recorded for users and pushed to them. -/
structure Dispatched (event : Event) (users : List UserId) (before after : Service) : Prop where
  rows : before.store.Extends event users after.store
  board : ∀ h, after.board.AgreeAt (before.board.broadcast
    ⟨fun user => users.contains user, .notification event.kind event.message⟩).2.1 h
  policy : after.board.policy = before.board.policy
  rest : after = { before with store := after.store, board := after.board }

/-- A dispatch that succeeds records and pushes. -/
theorem dispatched_of_succeeds (hevent : Event.ofEnvelope envelope = .ok event)
    (h : service.Succeeds event users) (now : Instant) (source : Handle) (user : UserId) :
    (service.dispatch now source user envelope).1 = .ok () ∧
      Dispatched event users service (service.dispatch now source user envelope).2.1 := by
  obtain ⟨hdone, store, hextends, hafter⟩ := dispatch_of_succeeds hevent h now source user
  refine ⟨hdone, ?_⟩
  rw [hafter]
  refine ⟨hextends, ?_, ?_, rfl⟩
  · intro h
    dsimp only
    split
    · next hnobody =>
        subst hnobody
        apply (Switchboard.agreeAt_broadcast_of_not_ownedBy _).symm
        rintro ⟨c, -, hwanted⟩
        cases hwanted
    · exact .refl _ h
  · dsimp only
    split
    · rfl
    · exact Switchboard.policy_broadcast _ _

/-- What was dispatched before does not keep an event from succeeding. -/
theorem Succeeds.of_dispatched {after : Service} (h : service.Succeeds other others)
    (hbefore : Dispatched event users service after) : after.Succeeds other others := by
  have hrest := hbefore.rest
  have hfaults : after.faults = service.faults := by rw [hrest]
  have htimeout : after.handlerTimeout = service.handlerTimeout := by rw [hrest]
  constructor
  · rw [hfaults, hbefore.rows.recipients_eq]
    exact h.lookup
  · rw [hfaults]
    exact h.stores
  · rw [hfaults, htimeout]
    exact h.inTime

/-- Pushes for different users may come in either order. -/
theorem Dispatched.board_comm {forth back forthward backward : Service}
    (hfirst : Dispatched event users service forth)
    (hlast : Dispatched other others forth forthward)
    (hother : Dispatched other others service back)
    (hrest : Dispatched event users back backward)
    (hdisjoint : ∀ user ∈ users, user ∉ others) (h : Handle) :
    forthward.board.AgreeAt backward.board h := by
  have hcomm := service.board.broadcast_comm
    ⟨fun user => users.contains user, .notification event.kind event.message⟩
    ⟨fun user => others.contains user, .notification other.kind other.message⟩
    (by simpa using hdisjoint) h
  have hforth := (hfirst.board h).broadcast
    (hfirst.policy.trans (Switchboard.policy_broadcast _ _).symm)
    ⟨fun user => others.contains user, .notification other.kind other.message⟩
  have hback := (hother.board h).broadcast
    (hother.policy.trans (Switchboard.policy_broadcast _ _).symm)
    ⟨fun user => users.contains user, .notification event.kind event.message⟩
  exact (((hlast.board h).trans hforth).trans hcomm).trans ((hrest.board h).trans hback).symm

/-- Two envelopes that are dispatched with success, whose events concern nobody in common, may be
dispatched in either order and at any times. Both succeed again, and every connection is the same
and registered or not, however full its queue and whatever the policy; every user is shown the same
rows but for their numbers and times; and nothing else differs. -/
theorem dispatch_comm {now later : Instant} {source sender : Handle} {user member : UserId}
    (hfirst : (service.dispatch now source user first).1 = .ok ())
    (hsecond : (service.dispatch later sender member second).1 = .ok ())
    (hdisjoint : ∀ other, service.Concerns first other → ¬service.Concerns second other)
    (t₁ t₂ t₃ t₄ : Instant) :
    let forth := (service.dispatch t₁ source user first).2.1.dispatch t₂ sender member second
    let back := (service.dispatch t₃ sender member second).2.1.dispatch t₄ source user first
    forth.1 = .ok () ∧ back.1 = .ok () ∧
    (∀ h, forth.2.1.board.get? h = back.2.1.board.get? h ∧
      (h ∈ forth.2.1.board.members ↔ h ∈ back.2.1.board.members)) ∧
    (∀ other, (forth.2.1.store.listFor other).map Notification.content =
      (back.2.1.store.listFor other).map Notification.content) ∧
    forth.2.1.store.agents = back.2.1.store.agents ∧
    forth.2.1.store.favorites = back.2.1.store.favorites ∧
    forth.2.1.store.sessions = back.2.1.store.sessions ∧
    forth.2.1 = { back.2.1 with store := forth.2.1.store, board := forth.2.1.board } := by
  intro forth back
  obtain ⟨event, users, hevent, hok⟩ := succeeds_of_dispatch hfirst
  obtain ⟨other, others, hother, hok'⟩ := succeeds_of_dispatch hsecond
  have hapart : ∀ user ∈ users, user ∉ others := by
    intro user hin hin'
    exact hdisjoint user ⟨event, hevent, (Faults.mem_recipients hok.lookup user).mp hin⟩
      ⟨other, hother, (Faults.mem_recipients hok'.lookup user).mp hin'⟩
  obtain ⟨-, hforth⟩ := dispatched_of_succeeds hevent hok t₁ source user
  obtain ⟨-, hback⟩ := dispatched_of_succeeds hother hok' t₃ sender member
  obtain ⟨hdone, hforthward⟩ :=
    dispatched_of_succeeds hother (hok'.of_dispatched hforth) t₂ sender member
  obtain ⟨hdone', hbackward⟩ :=
    dispatched_of_succeeds hevent (hok.of_dispatched hback) t₄ source user
  refine ⟨hdone, hdone', ?_, ?_, ?_, ?_, ?_, ?_⟩
  · intro h
    have hagree := hforth.board_comm hforthward hback hbackward hapart h
    exact ⟨hagree.get?_eq, hagree.mem_iff⟩
  · exact Store.map_content_listFor_comm hforth.rows hforthward.rows hback.rows hbackward.rows
      hapart
  · rw [hforthward.rows.agents, hforth.rows.agents, hbackward.rows.agents, hback.rows.agents]
  · rw [hforthward.rows.favorites, hforth.rows.favorites, hbackward.rows.favorites,
      hback.rows.favorites]
  · rw [hforthward.rows.sessions, hforth.rows.sessions, hbackward.rows.sessions,
      hback.rows.sessions]
  · rw [hforthward.rest, hforth.rest, hbackward.rest, hback.rest]

/-- User 3 favorited listing 42 and user 8 listing 43. Each has an open connection, and that of user
8 is full. -/
def twoListings : Service :=
  let store := (Store.empty.addFavorite ⟨3⟩ ⟨42⟩).addFavorite ⟨8⟩ ⟨43⟩
  { twoFollowers .none with store }

/-- Listing 43 is sold. -/
def sale : Envelope where
  eventType := "status_changed_notification"
  payload := .obj [("listing_id", .int 43), ("address", .str "2 Oak Ave"), ("status", .str "Sold")]

/-- The price drop of one listing and the sale of the other in both orders: the full connection is
evicted and the other one takes its push. -/
theorem dispatch_comm_twoListings :
    let forth := (twoListings.dispatch 0 0 ⟨7⟩ priceDrop).2.1.dispatch 1 1 ⟨9⟩ sale
    let back := (twoListings.dispatch 0 1 ⟨9⟩ sale).2.1.dispatch 1 0 ⟨7⟩ priceDrop
    (twoListings.dispatch 0 0 ⟨7⟩ priceDrop).1 = .ok () ∧
    (twoListings.dispatch 0 1 ⟨9⟩ sale).1 = .ok () ∧
    (∀ other, twoListings.Concerns priceDrop other → ¬twoListings.Concerns sale other) ∧
    forth.1 = .ok () ∧ back.1 = .ok () ∧
    (∀ h, forth.2.1.board.get? h = back.2.1.board.get? h ∧
      (h ∈ forth.2.1.board.members ↔ h ∈ back.2.1.board.members)) ∧
    (forth.2.1.store.listFor ⟨3⟩).map Notification.content =
      (back.2.1.store.listFor ⟨3⟩).map Notification.content := by
  intro forth back
  have hdrop : Event.ofEnvelope priceDrop = .ok (.priceDrop ⟨42⟩ "1 Main St" "$400") := rfl
  have hsale : Event.ofEnvelope sale = .ok (.statusChange ⟨43⟩ "2 Oak Ave" "Sold") := rfl
  have hsorted (user : UserId) : [user].mergeSort UserId.le = [user] :=
    List.mergeSort_of_pairwise (List.pairwise_singleton _ _)
  have hfirst : twoListings.Succeeds (.priceDrop ⟨42⟩ "1 Main St" "$400") [⟨3⟩] :=
    ⟨congrArg Except.ok (hsorted ⟨3⟩), fun _ _ => rfl, by decide⟩
  have hsecond : twoListings.Succeeds (.statusChange ⟨43⟩ "2 Oak Ave" "Sold") [⟨8⟩] :=
    ⟨congrArg Except.ok (hsorted ⟨8⟩), fun _ _ => rfl, by decide⟩
  have hdone := (dispatched_of_succeeds hdrop hfirst 0 0 ⟨7⟩).1
  have hdone' := (dispatched_of_succeeds hsale hsecond 0 1 ⟨9⟩).1
  have hdisjoint : ∀ other, twoListings.Concerns priceDrop other →
      ¬twoListings.Concerns sale other := by
    rintro other ⟨event, hevent, hin⟩ ⟨event', hevent', hin'⟩
    obtain rfl := Except.ok.inj (hdrop.symm.trans hevent)
    obtain rfl := Except.ok.inj (hsale.symm.trans hevent')
    have hthree := (Faults.mem_recipients hfirst.lookup other).mpr hin
    have height := (Faults.mem_recipients hsecond.lookup other).mpr hin'
    rw [List.mem_singleton.mp hthree] at height
    exact absurd height (by decide)
  obtain ⟨hforth, hback, hboards, hrows, -⟩ :=
    dispatch_comm hdone hdone' hdisjoint 0 1 0 1
  exact ⟨hdone, hdone', hdisjoint, hforth, hback, hboards, hrows ⟨3⟩⟩

end Service

end ListingHub
