import ListingHub.Proofs.Http.Basic
import ListingHub.Proofs.Owner

/-!
# Users do not see each other

Two hubs are alike to a session when it stands for the same user in both and the user's rows are
the same. The user is answered the same in both, and they stay alike, whatever the rows of others
are and wherever they stand.
-/

namespace ListingHub.Http

/-- Two hubs that a session cannot tell apart: nothing goes wrong with their stores, and the rows of
the session's user are the same. -/
structure Alike (token : String) (identity : Identity) (a b : Hub) : Prop where
  faultless : a.service.faults = .none
  faultless' : b.service.faults = .none
  session : a.service.store.resolve token = some identity
  session' : b.service.store.resolve token = some identity
  rows : a.service.store.listFor identity.userId = b.service.store.listFor identity.userId

/-- What becomes of a request to flip the read flag of a number. -/
structure Flipped (request : Request) (id : NotificationId) (user : UserId) (hub : Hub) : Prop where
  /-- A number of somebody else's row is answered as one of no row, and nothing changes. -/
  absent : (∀ row ∈ hub.service.store.rows, row.id = id → row.userId ≠ user) →
    respond request hub = (shared (.ofFailure (.notificationNotFound id)), hub) ∧
      (respond request hub).1.status = 404
  /-- A row of the user's own is answered flipped, and nothing else changes. -/
  own : (∃ row ∈ hub.service.store.rows, row.id = id ∧ row.userId = user) →
    ∃ i row, hub.service.store.rows[i]? = some row ∧ row.id = id ∧ row.userId = user ∧
      (respond request hub).1 = shared (.json 200 (shown row.flipped)) ∧
      hub.service.store.Flips i row (respond request hub).2.service.store

variable {token : String} {identity : Identity} {a b : Hub} {request : Request} {segment : String}
  {id : NotificationId}

theorem Alike.symm (h : Alike token identity a b) : Alike token identity b a :=
  ⟨h.faultless', h.faultless, h.session', h.session, h.rows.symm⟩

/-- The session is found. -/
theorem Alike.authenticate (h : Alike token identity a b)
    (htoken : request.sessionToken? = some token) :
    authenticate a.service.faults a.service.store request = .ok identity := by
  refine authenticate_eq_ok_iff.mpr ⟨token, htoken, ?_⟩
  rw [h.faultless]
  exact congrArg Except.ok h.session

/-- The user's rows are listed. -/
theorem Alike.list (h : Alike token identity a b) (htoken : request.sessionToken? = some token) :
    listNotifications request a =
      (.json 200 (listing (a.service.store.listFor identity.userId)), a) := by
  rw [listNotifications_of_ok (h.authenticate htoken), h.faultless]
  rfl

/-- The row is flipped, or not there. -/
theorem Alike.toggle (h : Alike token identity a b) (htoken : request.sessionToken? = some token)
    (hid : notificationId segment = .ok id) :
    toggleRead segment request a =
      (answer ((a.service.store.toggleRead id identity.userId).1.map shown),
        a.mapStore fun store => (store.toggleRead id identity.userId).2) := by
  rw [toggleRead_of_ok (h.authenticate htoken) hid, h.faultless]
  refine Prod.ext rfl ?_
  change note _ ((a.service.store.toggleRead id identity.userId).1.map shown) = _
  rw [Store.toggleRead]
  split
  · exact note_of_caller rfl _
  · rfl

/-- A toggle leaves hubs alike. -/
theorem Alike.flip (h : Alike token identity a b) (id : NotificationId) :
    Alike token identity (a.mapStore fun store => (store.toggleRead id identity.userId).2)
      (b.mapStore fun store => (store.toggleRead id identity.userId).2) where
  faultless := h.faultless
  faultless' := h.faultless'
  session := (Store.resolve_toggleRead token).trans h.session
  session' := (Store.resolve_toggleRead token).trans h.session'
  rows := by
    change (a.service.store.toggleRead id identity.userId).2.listFor identity.userId =
      (b.service.store.toggleRead id identity.userId).2.listFor identity.userId
    rw [Store.listFor_toggleRead, Store.listFor_toggleRead, h.rows]

theorem Alike.flipped (h : Alike token identity a b) (htoken : request.sessionToken? = some token)
    (hasks : request.Asks "PATCH" (.readFlag segment)) (hid : notificationId segment = .ok id) :
    Flipped request id identity.userId a where
  absent := by
    intro habsent
    have hnone := Store.toggleRead_of_absent habsent
    rw [respond_toggle hasks, h.toggle htoken hid, Hub.mapStore, hnone]
    exact ⟨rfl, rfl⟩
  own := by
    intro hown
    obtain ⟨i, row, hrow, hrowid, huser, hflipped, hflips⟩ := Store.toggleRead_of_own hown
    refine ⟨i, row, hrow, hrowid, huser, ?_⟩
    rw [respond_toggle hasks, h.toggle htoken hid, hflipped]
    exact ⟨rfl, hflips⟩

/-- Hubs that are alike answer a request of the session the same, and stay alike. -/
theorem Alike.respond_own (h : Alike token identity a b)
    (htoken : request.sessionToken? = some token)
    (hasks : request.Asks "GET" .notifications ∨
      ∃ segment, request.Asks "PATCH" (.readFlag segment)) :
    (respond request a).1 = (respond request b).1 ∧
      Alike token identity (respond request a).2 (respond request b).2 := by
  rcases hasks with hasks | ⟨segment, hasks⟩
  · rw [respond_list hasks, respond_list hasks, h.list htoken, h.symm.list htoken, h.rows]
    exact ⟨rfl, h⟩
  rw [respond_toggle hasks, respond_toggle hasks]
  cases hid : notificationId segment with
  | error response =>
      rw [toggleRead_of_malformed (h.authenticate htoken) hid,
        toggleRead_of_malformed (h.symm.authenticate htoken) hid]
      exact ⟨rfl, h⟩
  | ok id =>
      rw [h.toggle htoken hid, h.symm.toggle htoken hid, Store.toggleRead_fst_congr h.rows]
      exact ⟨rfl, h.flip id⟩

/-- A session is answered by its user's rows alone: in two hubs that are alike to it, the answers to
a listing and to a toggle are the same and the hubs stay alike. Somebody else's row is answered as
none, and only a row of the user's own is ever changed. -/
theorem answers_alike (h : Alike token identity a b)
    (htoken : request.sessionToken? = some token) :
    (request.Asks "GET" .notifications →
      (respond request a).1 = (respond request b).1 ∧ (respond request a).2 = a) ∧
    ∀ segment, request.Asks "PATCH" (.readFlag segment) →
      (respond request a).1 = (respond request b).1 ∧
      Alike token identity (respond request a).2 (respond request b).2 ∧
      (∀ response, notificationId segment = .error response → (respond request a).2 = a) ∧
      ∀ id, notificationId segment = .ok id → Flipped request id identity.userId a := by
  constructor
  · intro hasks
    refine ⟨(h.respond_own htoken (.inl hasks)).1, ?_⟩
    rw [respond_list hasks, h.list htoken]
  · intro segment hasks
    obtain ⟨hanswer, halike⟩ := h.respond_own htoken (.inr ⟨segment, hasks⟩)
    refine ⟨hanswer, halike, fun response hid => ?_, fun id hid => h.flipped htoken hasks hid⟩
    rw [respond_toggle hasks, toggleRead_of_malformed (h.authenticate htoken) hid]

/-- A hub in which the second of three rows is that of user 3, who has a session. -/
def besides (others : UserId) : Hub :=
  let draft (user : UserId) : Draft := ⟨user, ⟨42⟩, .priceDrop, "m"⟩
  let first := (Store.empty.create (draft others) ⟨0, 0⟩).2
  let second := (first.create (draft ⟨3⟩) ⟨0, 0⟩).2
  let third := (second.create (draft others) ⟨0, 0⟩).2
  .new .standard (.ofSeconds 10) (third.addSession "t" ⟨⟨3⟩, .user⟩) .none ⟨0, 0⟩

/-- User 3 wants a read flag flipped. -/
def flag (id : String) : Request where
  method := "PATCH"
  target := "/api/v1/notifications/" ++ id ++ "/read"
  headers := [("cookie", Utf8.ofText "session=t")]

theorem answers_alike_besides :
    Alike "t" ⟨⟨3⟩, .user⟩ (besides ⟨5⟩) (besides ⟨8⟩) ∧
    (flag "1").sessionToken? = some "t" ∧ (flag "1").Asks "PATCH" (.readFlag "1") ∧
    (respond (flag "1") (besides ⟨5⟩)).1 = (respond (flag "1") (besides ⟨8⟩)).1 ∧
    (respond (flag "1") (besides ⟨5⟩)).1.status = 404 ∧
    (respond (flag "2") (besides ⟨5⟩)).1 = (respond (flag "2") (besides ⟨8⟩)).1 ∧
    (respond (flag "2") (besides ⟨5⟩)).1.status = 200 := by
  have halike : Alike "t" ⟨⟨3⟩, .user⟩ (besides ⟨5⟩) (besides ⟨8⟩) := by
    constructor <;> rfl
  have htoken : (flag "1").sessionToken? = some "t" := by decide +kernel
  have hasks : (flag "1").Asks "PATCH" (.readFlag "1") := ⟨rfl, by decide +kernel⟩
  have hnumber : notificationId "1" = .ok ⟨1⟩ := toOption_eq_some.mp (by decide +kernel)
  have htoken' : (flag "2").sessionToken? = some "t" := by decide +kernel
  have hasks' : (flag "2").Asks "PATCH" (.readFlag "2") := ⟨rfl, by decide +kernel⟩
  have hnumber' : notificationId "2" = .ok ⟨2⟩ := toOption_eq_some.mp (by decide +kernel)
  obtain ⟨hsame, -, -, hflipped⟩ := (answers_alike halike htoken).2 "1" hasks
  obtain ⟨hsame', -, -, hflipped'⟩ := (answers_alike halike htoken').2 "2" hasks'
  refine ⟨halike, htoken, hasks, hsame, ?_, hsame', ?_⟩
  · exact ((hflipped ⟨1⟩ hnumber).absent (by decide)).2
  · obtain ⟨i, row, -, -, -, hanswer, -⟩ := (hflipped' ⟨2⟩ hnumber').own (by decide)
    rw [hanswer]
    rfl

end ListingHub.Http
