import ListingHub.Proofs.Http.Basic
import ListingHub.Proofs.Http.Token
import ListingHub.Proofs.Owner
import ListingHub.Proofs.Session.Run

/-!
# Who is calling

Listing, toggling and the upgrade of a connection look up the token that the request presents, and
go by nothing else. Without a session all three are refused alike, before anything of the store but
its sessions is looked at; with one, all is done for the user of the session.
-/

namespace ListingHub.Http

/-- The answer to a caller without a session. -/
def unauthorized : Response where
  status := 401
  headers := [("content-type", "application/json")]
  body := "\x7b\"error\":\x7b\"code\":2401,\"message\":\"unauthorized\"\x7d\x7d"

theorem ofFailure_unauthorized : Response.ofFailure .unauthorized = unauthorized := rfl

/-- A request is answered with the same response whichever of the three things it asks for. -/
structure Refuses (request : Request) (hub : Hub) (response : Response) (after : Hub) : Prop where
  list : request.Asks "GET" .notifications → respond request hub = (shared response, after)
  toggle : ∀ segment, request.Asks "PATCH" (.readFlag segment) →
    respond request hub = (shared response, after)
  upgrade : handshakeFault? request = none → upgrade request hub = (.error response, after)

/-- A connection is made that is the identity's from then on, and its read pump registers it, and
no other, in its first step. -/
structure Admits (hub : Hub) (identity : Identity) (h : Handle) (after : Hub) : Prop where
  fresh : hub.connection? h = none
  waits : after.service.board.members = hub.service.board.members
  owned : ∀ happenings, ∃ c,
    (after.run happenings).connection? h = some c ∧ c.identity = identity
  joins : ∀ cancelFirst g,
    g ∈ (after.after (.read h cancelFirst)).service.board.members ↔
      g ∈ hub.service.board.members ∨ g = h

/-- What a request asks for is done for an identity: its user's rows are shown, all of them and no
others; its user's row is flipped, and nobody else's; the connection is its own. -/
structure Serves (request : Request) (hub : Hub) (identity : Identity) : Prop where
  list : request.Asks "GET" .notifications →
    (respond request hub).1 = shared (answer
      ((hub.service.faults.listFor hub.service.store identity.userId).map listing)) ∧
    (respond request hub).2.service = hub.service ∧
    ∀ rows, hub.service.faults.listFor hub.service.store identity.userId = .ok rows →
      ∀ row, row ∈ rows ↔ row ∈ hub.service.store.rows ∧ row.userId = identity.userId
  malformed : ∀ segment response, request.Asks "PATCH" (.readFlag segment) →
    notificationId segment = .error response → respond request hub = (shared response, hub)
  toggle : ∀ segment id, request.Asks "PATCH" (.readFlag segment) →
    notificationId segment = .ok id →
    (respond request hub).1 = shared (answer
      ((hub.service.faults.toggleRead hub.service.store id identity.userId).1.map shown)) ∧
    (respond request hub).2.service.store =
      (hub.service.faults.toggleRead hub.service.store id identity.userId).2 ∧
    ∀ other, other ≠ identity.userId →
      (respond request hub).2.service.store.listFor other = hub.service.store.listFor other
  upgrade : handshakeFault? request = none → ∃ h,
    (Http.upgrade request hub).1 = .ok h ∧ Admits hub identity h (Http.upgrade request hub).2

variable {request : Request} {hub : Hub} {failure : Failure} {identity : Identity}

theorem refuses_of_error
    (h : authenticate hub.service.faults hub.service.store request = .error failure) :
    Refuses request hub (.ofFailure failure) (note hub (.error failure)) where
  list hasks := by
    rw [respond_list hasks, listNotifications_of_error h]
    rfl
  toggle segment hasks := by
    rw [respond_toggle hasks, toggleRead_of_error h]
    rfl
  upgrade hhandshake := by
    simp only [Http.upgrade, hhandshake, h]
    rfl

theorem connection?_accept (hub : Hub) (identity : Identity) (transport : Transport) :
    (hub.accept identity transport).2.connection? (hub.accept identity transport).1 =
      some (.new identity hub.settings.outboundCapacity) :=
  (Switchboard.get?_connect _ _ _ _).trans (if_pos rfl)

theorem admits_accept (hlength : hub.peers.length = hub.service.board.connections.length)
    (identity : Identity) (transport : Transport) :
    Admits hub identity (hub.accept identity transport).1 (hub.accept identity transport).2 where
  fresh := List.getElem?_eq_none (Nat.le_refl _)
  waits := rfl
  owned happenings :=
    (Hub.acted_run (hub.accept identity transport).2 happenings).exists_get?
      (connection?_accept hub identity transport)
  joins := by
    intro cancelFirst g
    have hget := connection?_accept hub identity transport
    have hpeer : (hub.accept identity transport).2.peers[(hub.accept identity transport).1]? =
        some (.new transport) := by
      simp [Hub.accept, Switchboard.connect, ← hlength]
    rw [Hub.after, Hub.readStep, hpeer, hget]
    refine (Switchboard.mem_add _ _ g).trans (or_congr Iff.rfl (and_iff_left ?_))
    exact Switchboard.lt_of_get? hget

theorem serves_of_ok (hlength : hub.peers.length = hub.service.board.connections.length)
    (h : authenticate hub.service.faults hub.service.store request = .ok identity) :
    Serves request hub identity where
  list hasks := by
    rw [respond_list hasks, listNotifications_of_ok h]
    exact ⟨rfl, service_note hub _, fun rows hrows => Faults.mem_listFor _ _ hrows⟩
  malformed segment response hasks hid := by
    rw [respond_toggle hasks, toggleRead_of_malformed h hid]
  toggle segment id hasks hid := by
    rw [respond_toggle hasks, toggleRead_of_ok h hid]
    refine ⟨rfl, ?_, ?_⟩
    · rw [service_note]
      rfl
    · intro other hother
      rw [service_note]
      exact Faults.listFor_toggleRead_of_ne _ _ _ hother
  upgrade hhandshake := by
    simp only [Http.upgrade, hhandshake, h]
    exact ⟨_, rfl, admits_accept hlength identity .webSocket⟩

/-- What the caller of a request gets is decided by the one token that the request presents. Without
a session every request is answered with the same refusal and the hub stays as it was; if sessions
cannot be looked up, the answer is that failure; otherwise all is done for the identity of the
session. Beside a session cookie the session header makes no difference. -/
theorem served_for_presented_token (settings : Settings) (handlerTimeout : Duration) (store : Store)
    (faults : Faults) (start : Timestamp) (router : Router Handler) (past : List Happening)
    (request : Request) :
    let hub := ((Hub.new settings handlerTimeout store faults start).withRouter router).run past
    ∃ presented, (∀ t, request.Presents t ↔ t = presented) ∧
    ((presented = none ∨ ∃ token, presented = some token ∧
        hub.service.faults.resolve hub.service.store token = .ok none) →
      Refuses request hub unauthorized hub) ∧
    (∀ token failure, presented = some token →
      hub.service.faults.resolve hub.service.store token = .error failure →
        Refuses request hub (.ofFailure failure) (note hub (.error failure))) ∧
    (∀ token identity, presented = some token →
      hub.service.faults.resolve hub.service.store token = .ok (some identity) →
        Serves request hub identity) ∧
    ∀ other token, request.SameBut other → request.cookie? "session" = some token →
      respond request hub = respond other hub ∧ upgrade request hub = upgrade other hub := by
  intro hub
  have hlength : hub.peers.length = hub.service.board.connections.length :=
    Hub.length_of_lawful (Hub.lawful_run
      (Hub.lawful_new settings handlerTimeout store faults start router) past)
  refine ⟨request.sessionToken?, fun t => presents_iff.trans eq_comm, ?_, ?_, ?_, ?_⟩
  · intro hnobody
    have hcaller : authenticate hub.service.faults hub.service.store request =
        .error .unauthorized := by
      rcases hnobody with hnone | ⟨token, htoken, hresolve⟩
      · rw [authenticate, hnone]
      · simp only [authenticate, htoken, hresolve]
    have hrefuses := refuses_of_error hcaller
    rwa [ofFailure_unauthorized, note_of_caller rfl] at hrefuses
  · intro token failure htoken hresolve
    refine refuses_of_error ?_
    simp only [authenticate, htoken, hresolve]
  · intro token identity htoken hresolve
    exact serves_of_ok hlength (authenticate_eq_ok_iff.mpr ⟨token, htoken, hresolve⟩)
  · intro other token hsame hcookie
    exact ⟨hsame.respond hcookie hub, hsame.upgrade hcookie hub⟩

/-- Somebody lists the notifications. -/
def lists (headers : List (String × List UInt8)) : Request where
  method := "GET"
  target := "/api/v1/notifications"
  headers := headers

/-- An empty cookie hides a session that the header alone would present. -/
theorem served_for_presented_token_lists :
    let hub := ((Hub.new .standard ⟨10, 0, by decide, by decide⟩
      (Store.empty.addSession "t" ⟨⟨3⟩, .user⟩) .none ⟨0, 0⟩).withRouter .empty).run []
    respond (lists [("cookie", Utf8.ofText "session="), ("x-session-token", Utf8.ofText "t")]) hub =
      (shared unauthorized, hub) ∧
    Serves (lists [("x-session-token", Utf8.ofText " t ")]) hub ⟨⟨3⟩, .user⟩ := by
  intro hub
  constructor
  · obtain ⟨presented, hpresents, hnobody, -⟩ := served_for_presented_token .standard
      ⟨10, 0, by decide, by decide⟩ (Store.empty.addSession "t" ⟨⟨3⟩, .user⟩) .none ⟨0, 0⟩ .empty []
      (lists [("cookie", Utf8.ofText "session="), ("x-session-token", Utf8.ofText "t")])
    have hempty : some "" = presented := (hpresents _).mp (presents_iff.mpr (by decide +kernel))
    exact (hnobody (.inr ⟨"", hempty.symm, rfl⟩)).list ⟨rfl, by decide +kernel⟩
  · obtain ⟨presented, hpresents, -, -, hserves, -⟩ := served_for_presented_token .standard
      ⟨10, 0, by decide, by decide⟩ (Store.empty.addSession "t" ⟨⟨3⟩, .user⟩) .none ⟨0, 0⟩ .empty []
      (lists [("x-session-token", Utf8.ofText " t ")])
    have htoken : some "t" = presented := (hpresents _).mp (presents_iff.mpr (by decide +kernel))
    exact hserves "t" ⟨⟨3⟩, .user⟩ htoken.symm rfl

end ListingHub.Http
